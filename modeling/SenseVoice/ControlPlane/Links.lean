import SenseVoice.ControlPlane.Steps

/-!
# The links of a run

A link is made by a socket: a bridge link is registered in `inner.bridge` while its socket runs, a
client link in `inner.clients`. This file follows both along a run.

Results:
* `linked_before`: in a run that draws no UUID twice, the registered bridge link always belongs to a
  running socket and has a receiver, so a send on it never fails;
* `newest_before`: the link in `inner.clients` is the one registered last for its session;
* `step_clients`: what one event does to the registered client of one session.
-/

namespace SenseVoice.ControlPlane

open Lib

variable {cfg : Config} {digest : String → String} {s t : System} {e : Event}

/-! ## Sockets and receivers -/

/-- The links whose receiver an event drops. -/
def Event.drops : Event → List Uuid
  | .bridgeDisconnect socketId => [socketId]
  | .clientClose _ socketId => [socketId]
  | _ => []

theorem step_dropped (h : step cfg digest s e = some t) :
    t.app.dropped = e.drops ++ s.app.dropped := by
  rw [step_app h]
  cases e with
  | createBrowserGrant req body now token =>
    obtain ⟨g, hg⟩ := createBrowserGrant_frame digest cfg req body now token s.app
    rw [Event.apply, hg]
    rfl
  | createSession i => exact (createSession_frame digest cfg i s.app).2
  | access req c => rfl
  | command c =>
    cases c with
    | commit k => exact (forward_frame k _ s.app).2
    | speak k body => exact (speakText_frame k body s.app).2
    | delete k =>
      rw [Event.apply, runCommand]
      cases hk : s.app.inner.sessions.lookup k with
      | none => rw [deleteSession_none hk]; rfl
      | some r => exact (deleteSession_some hk).2.2.2.2.1
  | bridgeConnect req socketId =>
    rw [Event.apply]
    split <;> rfl
  | bridgeMessage socketId message times =>
    exact (handleBridgeEvent_frame message times s.app).2.2.2.2.1
  | bridgeDisconnect socketId =>
    by_cases hb : s.app.inner.bridge = some ⟨socketId⟩
    · exact (bridgeDisconnect_current hb).2.2.2.2.1
    · rw [Event.apply, bridgeDisconnect_stale hb]
      rfl
  | clientWs req => rfl
  | clientOpen k socketId =>
    rw [Event.apply]
    cases ho : clientOpen k socketId s.app with
    | none => rfl
    | some b => exact (clientOpen_some ho).2.2.1
  | clientClose k socketId => exact (clientClose_frame k socketId s.app).2.2.2.2.1
  | reaper now => exact (reaperPass_frame now s.app).2.2.2.2.1
  | rehash sessions => rfl

/-- A running bridge socket was running before or has just connected. -/
theorem bridgeSockets_step (h : step cfg digest s e = some t) {u : Uuid}
    (hu : u ∈ t.bridgeSockets) : u ∈ s.bridgeSockets ∨ ∃ req, e = .bridgeConnect req u := by
  rw [step_eq h] at hu
  cases e with
  | bridgeConnect req socketId =>
    simp only [Event.advance] at hu
    split at hu
    · rcases List.mem_cons.mp hu with rfl | hu
      · exact Or.inr ⟨req, rfl⟩
      · exact Or.inl hu
    · exact Or.inl hu
  | bridgeDisconnect socketId => exact Or.inl (List.mem_of_mem_erase hu)
  | access req c => simp only [Event.advance] at hu; split at hu <;> exact Or.inl hu
  | clientWs req => simp only [Event.advance] at hu; split at hu <;> exact Or.inl hu
  | clientOpen k socketId => simp only [Event.advance] at hu; split at hu <;> exact Or.inl hu
  | _ => exact Or.inl hu

/-- A running bridge socket runs on unless its loop ends. -/
theorem bridgeSockets_kept (h : step cfg digest s e = some t) {u : Uuid}
    (hu : u ∈ s.bridgeSockets) : u ∈ t.bridgeSockets ∨ e = .bridgeDisconnect u := by
  rw [step_eq h]
  cases e with
  | bridgeConnect req socketId =>
    simp only [Event.advance]
    split
    · exact Or.inl (List.mem_cons_of_mem _ hu)
    · exact Or.inl hu
  | bridgeDisconnect socketId =>
    by_cases hs : u = socketId
    · exact Or.inr (by rw [hs])
    · exact Or.inl ((List.mem_erase_of_ne hs).mpr hu)
  | access req c => simp only [Event.advance]; split <;> exact Or.inl hu
  | clientWs req => simp only [Event.advance]; split <;> exact Or.inl hu
  | clientOpen k socketId => simp only [Event.advance]; split <;> exact Or.inl hu
  | _ => exact Or.inl hu

/-- A running client socket was running before or has just been registered. -/
theorem clientSockets_step (h : step cfg digest s e = some t) {p : Uuid × Uuid}
    (hp : p ∈ t.clientSockets) : p ∈ s.clientSockets ∨ e = .clientOpen p.1 p.2 := by
  rw [step_eq h] at hp
  cases e with
  | clientOpen k socketId =>
    simp only [Event.advance] at hp
    split at hp
    · rcases List.mem_cons.mp hp with rfl | hp
      · exact Or.inr rfl
      · exact Or.inl hp
    · exact Or.inl hp
  | clientClose k socketId => exact Or.inl (List.mem_of_mem_erase hp)
  | access req c => simp only [Event.advance] at hp; split at hp <;> exact Or.inl hp
  | clientWs req => simp only [Event.advance] at hp; split at hp <;> exact Or.inl hp
  | bridgeConnect req socketId => simp only [Event.advance] at hp; split at hp <;> exact Or.inl hp
  | _ => exact Or.inl hp

/-- The registered bridge link belongs to a running socket and has a receiver; sockets, receivers and
sent messages carry ids that have been drawn, and no id is both a bridge's and a client's. -/
structure Linked (s : System) : Prop where
  up : ∀ link, s.app.inner.bridge = some link → link.id ∈ s.bridgeSockets
  alive : ∀ link, s.app.inner.bridge = some link → link.id ∉ s.app.dropped
  bridges_drawn : ∀ u ∈ s.bridgeSockets, u ∈ s.drawn
  clients_drawn : ∀ p ∈ s.clientSockets, p.2 ∈ s.drawn
  dropped_drawn : ∀ u ∈ s.app.dropped, u ∈ s.drawn
  out_drawn : ∀ p ∈ s.app.bridgeOut, p.1 ∈ s.drawn
  separate : ∀ u ∈ s.bridgeSockets, ∀ p ∈ s.clientSockets, p.2 ≠ u

theorem linked_init : Linked System.init where
  up _ h := absurd h (by simp [System.init, AppState.new, Inner.empty])
  alive _ h := absurd h (by simp [System.init, AppState.new, Inner.empty])
  bridges_drawn _ h := absurd h List.not_mem_nil
  clients_drawn _ h := absurd h List.not_mem_nil
  dropped_drawn _ h := absurd h List.not_mem_nil
  out_drawn _ h := absurd h List.not_mem_nil
  separate _ h := absurd h List.not_mem_nil

namespace Linked

theorem liveBridge (hl : Linked s) : s.app.liveBridge = s.app.inner.bridge := by
  cases hb : s.app.inner.bridge with
  | none => simp [AppState.liveBridge, hb]
  | some link => exact AppState.liveBridge_eq_some.mpr ⟨hb, hl.alive link hb⟩

/-- The link registered after a step is the old one, whose socket goes on, or that of a new bridge
connection. -/
theorem bridge_after (_ : Linked s) (h : step cfg digest s e = some t) {link : SocketLink}
    (hb : t.app.inner.bridge = some link) :
    (s.app.inner.bridge = some link ∧ e ≠ .bridgeDisconnect link.id) ∨
      ∃ req, e = .bridgeConnect req link.id ∧ bridgeAuthorized req cfg = true := by
  rcases step_bridge h with hsame | ⟨hnone, -⟩ | ⟨req, socketId, he, hauth, hnew⟩ |
    ⟨socketId, -, -, hnone⟩
  · refine Or.inl ⟨hsame.symm.trans hb, ?_⟩
    rintro rfl
    have hcur : s.app.inner.bridge = some ⟨link.id⟩ := hsame.symm.trans hb
    have hgone : t.app.inner.bridge = none := by
      rw [step_app h]
      exact (bridgeDisconnect_current hcur).2.2.1
    exact absurd hb (by simp [hgone])
  · exact absurd hb (by simp [hnone])
  · rw [hnew] at hb
    obtain rfl := Option.some.inj hb
    exact Or.inr ⟨req, he, hauth⟩
  · exact absurd hb (by simp [hnone])

/-- A step that draws new UUIDs keeps `Linked`. -/
theorem step (hl : Linked s) (hf : FreshStep ⟨s, e, t⟩)
    (h : ControlPlane.step cfg digest s e = some t) : Linked t := by
  have hnew : ∀ u ∈ e.uuids, u ∈ t.drawn := fun u hu => by
    rw [step_drawn h]
    exact List.mem_append_left _ hu
  refine ⟨fun link hb => ?_, fun link hb hd => ?_, fun u hu => ?_, fun p hp => ?_, fun u hu => ?_,
    fun p hp => ?_, fun u hu p hp => ?_⟩
  · rcases hl.bridge_after h hb with ⟨hold, hne⟩ | ⟨req, rfl, hauth⟩
    · rcases bridgeSockets_kept h (hl.up link hold) with hk | he
      · exact hk
      · exact absurd he hne
    · rw [step_eq h]
      simp only [Event.advance, hauth, if_true]
      exact List.mem_cons_self
  · rw [step_dropped h] at hd
    rcases hl.bridge_after h hb with ⟨hold, hne⟩ | ⟨req, rfl, -⟩
    · rcases List.mem_append.mp hd with hd | hd
      · have hen := step_enabled h
        cases e with
        | bridgeDisconnect socketId => exact hne (by rw [List.mem_singleton.mp hd])
        | clientClose k socketId =>
          have hrun : (k, socketId) ∈ s.clientSockets := by simpa [Event.enabled] using hen
          exact hl.separate link.id (hl.up link hold) _ hrun (List.mem_singleton.mp hd).symm
        | _ => exact absurd hd List.not_mem_nil
      · exact hl.alive link hold hd
    · exact hf.2 link.id List.mem_cons_self (hl.dropped_drawn _ hd)
  · rcases bridgeSockets_step h hu with hold | ⟨req, rfl⟩
    · exact drawn_mono h (hl.bridges_drawn u hold)
    · exact hnew u List.mem_cons_self
  · rcases clientSockets_step h hp with hold | rfl
    · exact drawn_mono h (hl.clients_drawn p hold)
    · exact hnew p.2 List.mem_cons_self
  · rw [step_dropped h] at hu
    rcases List.mem_append.mp hu with hu | hu
    · have hen := step_enabled h
      cases e with
      | bridgeDisconnect socketId =>
        have hrun : socketId ∈ s.bridgeSockets := by simpa [Event.enabled] using hen
        rw [List.mem_singleton.mp hu]
        exact drawn_mono h (hl.bridges_drawn _ hrun)
      | clientClose k socketId =>
        have hrun : (k, socketId) ∈ s.clientSockets := by simpa [Event.enabled] using hen
        rw [List.mem_singleton.mp hu]
        exact drawn_mono h (hl.clients_drawn _ hrun)
      | _ => exact absurd hu List.not_mem_nil
    · exact drawn_mono h (hl.dropped_drawn u hu)
  · obtain ⟨out, hout, hlive⟩ := bridgeOut_grows h
    rw [hout] at hp
    rcases List.mem_append.mp hp with hp | hp
    · exact drawn_mono h (hl.out_drawn p hp)
    · obtain ⟨link, hlink, hid⟩ := hlive p hp
      rw [hid]
      have hreg := (AppState.liveBridge_eq_some.mp hlink).1
      exact drawn_mono h (hl.bridges_drawn _ (hl.up link hreg))
  · rcases bridgeSockets_step h hu with hu' | ⟨req, rfl⟩
    · rcases clientSockets_step h hp with hp' | rfl
      · exact hl.separate u hu' p hp'
      · rintro rfl
        exact hf.2 p.2 List.mem_cons_self (hl.bridges_drawn _ hu')
    · rcases clientSockets_step h hp with hp' | he
      · rintro rfl
        exact hf.2 p.2 List.mem_cons_self (hl.clients_drawn _ hp')
      · exact absurd he (by simp)

end Linked

/-- **The registered bridge link is alive** before every step of a run that draws no UUID twice. -/
theorem linked_before {es : List Event} (hf : FreshRun cfg digest es) :
    ∀ x ∈ trace cfg digest es, Linked x.before :=
  Run.before_of_trace linked_init fun x hx hl => hl.step (hf x hx) (Run.mem_trace hx).2

/-! ## Registered clients -/

/-- What one event does to the registered client of the session `k`. -/
theorem step_clients (h : step cfg digest s e = some t) (hk : KeyedById s.app) (k : Uuid) :
    (∃ socketId, e = .clientOpen k socketId ∧ s.app.sessionOpen k = true ∧
      t.app.inner.clients.lookup k = some ⟨socketId⟩ ∧
      t.registered = (k, socketId) :: s.registered) ∨
    ((t.app.inner.clients.lookup k = s.app.inner.clients.lookup k ∨
      t.app.inner.clients.lookup k = none) ∧
      t.registered.lookup k = s.registered.lookup k) := by
  have hreg : (∀ id socketId, e ≠ .clientOpen id socketId) → t.registered = s.registered := by
    intro hne
    rw [step_eq h]
    cases e with
    | clientOpen id socketId => exact absurd rfl (hne id socketId)
    | access req c => simp only [Event.advance]; split <;> rfl
    | clientWs req => simp only [Event.advance]; split <;> rfl
    | bridgeConnect req socketId => simp only [Event.advance]; split <;> rfl
    | _ => rfl
  by_cases hopen : ∃ id socketId, e = .clientOpen id socketId
  · obtain ⟨id, socketId, rfl⟩ := hopen
    rw [step_eq h]
    simp only [Event.apply, Event.advance]
    cases ho : clientOpen id socketId s.app with
    | none => exact Or.inr ⟨Or.inl rfl, rfl⟩
    | some b =>
      obtain ⟨hsome, hinner, -, -⟩ := clientOpen_some ho
      simp only [Option.getD_some, hinner, Option.isSome_some, if_true, Table.lookup_insert_eq]
      by_cases hid : k = id
      · subst hid
        exact Or.inl ⟨socketId, rfl, sessionOpen_iff.mpr hsome, if_pos rfl, rfl⟩
      · rw [if_neg hid, List.lookup_cons, beq_false_of_ne hid]
        exact Or.inr ⟨Or.inl rfl, rfl⟩
  · right
    rw [hreg fun id socketId he => hopen ⟨id, socketId, he⟩]
    refine ⟨?_, rfl⟩
    have hcases : ∀ {p : Prop} [Decidable p] {b : Option SocketLink},
        b = (if p then none else s.app.inner.clients.lookup k) →
          b = s.app.inner.clients.lookup k ∨ b = none := by
      intro p _ b hb
      split at hb
      · exact Or.inr hb
      · exact Or.inl hb
    rw [step_app h]
    cases e with
    | createBrowserGrant req body now token =>
      obtain ⟨g, hg⟩ := createBrowserGrant_frame digest cfg req body now token s.app
      rw [Event.apply, hg]
      exact Or.inl rfl
    | createSession i =>
      rw [Event.apply, (createSession_frame digest cfg i s.app).1]
      exact Or.inl rfl
    | access req c => exact Or.inl rfl
    | command c =>
      rw [Event.apply]
      cases c with
      | commit id =>
        rw [runCommand, commitUtterance, (forward_frame id _ s.app).1]
        exact Or.inl rfl
      | speak id body =>
        rw [runCommand, (speakText_frame id body s.app).1]
        exact Or.inl rfl
      | delete id =>
        rw [runCommand]
        cases hd : s.app.inner.sessions.lookup id with
        | none => rw [deleteSession_none hd]; exact Or.inl rfl
        | some r => exact hcases ((deleteSession_some hd).2.1 k)
    | bridgeConnect req socketId =>
      rw [Event.apply]
      split <;> exact Or.inl rfl
    | bridgeMessage socketId message times =>
      rw [Event.apply, (handleBridgeEvent_frame message times s.app).2.1]
      exact Or.inl rfl
    | bridgeDisconnect socketId =>
      rw [Event.apply]
      by_cases hb : s.app.inner.bridge = some ⟨socketId⟩
      · exact hcases ((bridgeDisconnect_current hb).2.1 hk k)
      · rw [bridgeDisconnect_stale hb]
        exact Or.inl rfl
    | clientWs req => exact Or.inl rfl
    | clientOpen id socketId => exact absurd ⟨id, socketId, rfl⟩ hopen
    | clientClose id socketId => exact hcases ((clientClose_frame id socketId s.app).2.1 k)
    | reaper now => exact hcases ((reaperPass_frame now s.app).2.1 k)
    | rehash sessions => exact Or.inl rfl

/-- Records are filed under their own id before every step of every run. -/
theorem keyedById_before {es : List Event} :
    ∀ x ∈ trace cfg digest es, KeyedById x.before.app :=
  Run.before_of_trace (P := fun s => KeyedById s.app) keyedById_init
    fun _ hx hk => keyedById_step (Run.mem_trace hx).2 hk

/-- The registered client of a session is the one registered last. -/
def Newest (s : System) : Prop :=
  ∀ k link, s.app.inner.clients.lookup k = some link → s.registered.lookup k = some link.id

theorem newest_step (h : step cfg digest s e = some t) (hk : KeyedById s.app) (hn : Newest s) :
    Newest t := by
  intro k link hl
  rcases step_clients h hk k with ⟨socketId, -, -, hc, hr⟩ | ⟨hc | hc, hr⟩
  · rw [hc] at hl
    obtain rfl := Option.some.inj hl
    rw [hr, List.lookup_cons, beq_self_eq_true]
  · rw [hr]
    exact hn k link (hc ▸ hl)
  · rw [hc] at hl
    exact absurd hl (by simp)

/-- **The registered client is the newest** before every step of every run. -/
theorem newest_before {es : List Event} : ∀ x ∈ trace cfg digest es, Newest x.before :=
  Run.before_of_trace (fun _ _ h => absurd h (by simp [System.init, AppState.new, Inner.empty]))
    fun x hx hn => newest_step (Run.mem_trace hx).2 (keyedById_before x hx) hn

end SenseVoice.ControlPlane
