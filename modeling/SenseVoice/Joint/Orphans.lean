import SenseVoice.Joint.Invariants

/-!
# No orphaned listener

A `session.stop` goes to the link registered at that moment and may be lost with it. `Covered` is what
survives that, for the registered link while it is up: a session the bridge has, or will have once the
`session.start` on the way arrives, is open or has a `session.stop` on the way. FIFO order brings the
stop after the start; a link that is not registered is on its way down, and the bridge stops all its
sessions there.

Results:
* `Covered.link`, `Covered.alone`, `Covered.relay`: each kind of step keeps it;
* **`no_orphans`**: in every quiescent state of every run that draws no UUID twice, a session in the
  table of a bridge is open on the control plane.
-/

namespace SenseVoice.Joint

open Lib ControlPlane Bridge

/-- The bridge has the session, or its `session.start` is on the way. -/
def Link.Expects (l : Link) (sent : List Value) (id : Uuid) : Prop :=
  id ∈ l.app.sessions ∨ ∃ m ∈ Channel.pending sent l.delivered, Says "session.start" m id

/-- Every session the bridge has or will have is open or about to be stopped. -/
def Covered (a : AppState) (sent : List Value) (l : Link) : Prop :=
  ∀ id, l.Expects sent id →
    a.sessionOpen id = true ∨ ∃ m ∈ Channel.pending sent l.delivered, Says "session.stop" m id

/-- `Covered` for the registered link while it is up. -/
def CoveredIfUp (d : Deployment) : Prop :=
  ∀ u l, d.control.app.inner.bridge = some ⟨u⟩ → d.links.lookup u = some l → l.up = true →
    Covered d.control.app (sentOn d.control.app u) l

variable {cfg : Config} {digest : String → String} {s t : System}

/-! ## One step -/

/-- A link that is up after a step was up before. -/
theorem link_up {sent : List Value} {l l' : Link} {e : LinkEvent} (h : l.step sent e = some l')
    (hu : l'.up = true) : l.up = true := by
  cases link_cases h with
  | lost hup => exact hup
  | _ => exact hu

/-- A message that does not close an open session leaves it open. -/
theorem open_of_message {v : Uuid} {message : Option Value} {times : RelayTimes}
    (hs : step cfg digest s (.bridgeMessage v message times) = some t) {id : Uuid}
    (ho : s.app.sessionOpen id = true) (hm : marks message id ≠ some .closed) :
    t.app.sessionOpen id = true := by
  obtain ⟨r, hr, hro⟩ := sessionOpen_iff.mp ho
  refine sessionOpen_iff.mpr ⟨markSession message id r, ?_, ?_⟩
  · rw [step_app hs, Event.apply, (handleBridgeEvent_frame message times s.app).1 id, hr]
    rfl
  · unfold markSession
    split
    · rename_i st hst
      rw [hst] at hm
      simpa [Session.isOpen] using hm
    · exact hro

namespace Covered

variable {a : AppState} {sent : List Value} {l l' : Link} {u : Uuid}

/-- A step of the link that leaves it up keeps `Covered`. -/
theorem link (h : Covered a sent l) (hsound : Sound sent l) (hs : StartsFirst sent) {e : LinkEvent}
    (he : l.step sent e = some l') (hu : l'.up = true) : Covered a sent l' := by
  cases link_cases he with
  | @delivered m r _ _ hm hh =>
    intro id hex
    have hpending := Channel.pending_of_next hm
    -- the message delivered does not stop a session the bridge still expects
    have hno : ¬ Says "session.stop" m id := by
      intro hstop
      rcases hex with hid | ⟨p, hp, hstart⟩
      · exact (hh.mem_sessions hid).2 hstop
      · exact hs.not_opens_pending hm hstop.names p hp hstart
    have hbefore : l.Expects sent id := by
      rcases hex with hid | ⟨p, hp, hstart⟩
      · rcases (hh.mem_sessions hid).1 with hid | hstart
        · exact Or.inl hid
        · exact Or.inr ⟨m, by rw [hpending]; exact List.mem_cons_self, hstart⟩
      · exact Or.inr ⟨p, by rw [hpending]; exact List.mem_cons_of_mem _ hp, hstart⟩
    rcases h id hbefore with hopen | ⟨p, hp, hstop⟩
    · exact Or.inl hopen
    · rw [hpending] at hp
      rcases List.mem_cons.mp hp with rfl | hp
      · exact absurd hstop hno
      · exact Or.inr ⟨p, hp, hstop⟩
  | resumed _ hh =>
    intro id hex
    refine h id ?_
    rcases hex with hid | hp
    · exact Or.inl (hh.mem_sessions hsound.not_replacing hid)
    · exact Or.inr hp
  | emitted => exact h
  | lost => exact absurd hu (by simp [Link.up])
  | closed hd => exact absurd (hd.symm.trans hu) (by simp)

/-- A step of the control plane on its own keeps `Covered` for the registered link: a session it
starts is open, and a session it closes is stopped. -/
theorem alone (h : Covered s.app (sentOn s.app u) l) (hg : Ground s)
    (hsound : Sound (sentOn s.app u) l) (hb : s.app.inner.bridge = some ⟨u⟩) {e : Event}
    (hl : isLocal e = true) (hs : step cfg digest s e = some t) :
    Covered t.app (sentOn t.app u) l := by
  obtain ⟨out, hout, hsent⟩ := step_sent hs
  intro id hex
  unfold Link.Expects at hex
  rw [sentOn_append hout u, Channel.pending_append hsound.delivered_le] at hex ⊢
  have hnew : (∃ m ∈ onLink u out, Says "session.start" m id) ∨ l.Expects (sentOn s.app u) id := by
    rcases hex with hid | ⟨m, hm, hstart⟩
    · exact Or.inr (Or.inl hid)
    · rcases List.mem_append.mp hm with hm | hm
      · exact Or.inr (Or.inr ⟨m, hm, hstart⟩)
      · exact Or.inl ⟨m, hm, hstart⟩
  rcases hnew with ⟨m, hm, hstart⟩ | hex
  · exact Or.inl (hsent.started (mem_onLink.mp hm) hstart).2
  · rcases h id hex with hopen | ⟨m, hm, hstop⟩
    · by_cases hstill : t.app.sessionOpen id = true
      · exact Or.inl hstill
      · have hlive : s.app.liveBridge = some ⟨u⟩ := hg.linked.liveBridge.trans hb
        obtain ⟨hin, hne⟩ := closing_sends hs hl hg.keyed hopen (by simpa using hstill) hlive
        have hsends : out = e.sends s.app :=
          List.append_cancel_left (hout.symm.trans (step_bridgeOut hs hne))
        rw [← hsends] at hin
        exact Or.inr ⟨_, List.mem_append_right _ (mem_onLink.mpr hin), says_sessionMessage _ _⟩
    · exact Or.inr ⟨m, List.mem_append_left _ hm, hstop⟩

/-- An emission keeps `Covered`, unless it closes a session the bridge still expects. -/
theorem relay (h : Covered s.app sent l) {v : Uuid} {m : Emission} {times : RelayTimes}
    (hs : step cfg digest s (.bridgeMessage v (some m.toValue) times) = some t)
    (hno : ∀ id, m = .closed id → ¬ l.Expects sent id) : Covered t.app sent l := by
  intro id hex
  rcases h id hex with hopen | hstop
  · refine Or.inl (open_of_message hs hopen fun hclosed => ?_)
    rw [marks_toValue] at hclosed
    split at hclosed
    · rename_i hid
      obtain ⟨k, rfl⟩ := mark_closed hclosed
      subst hid
      exact hno _ rfl hex
    · exact absurd hclosed (by simp)
  · exact Or.inr hstop

end Covered

/-! ## Runs -/

variable {d t : Deployment} {x : Act}

/-- The answer to a stop never meets a session that a bridge still expects: not on its own link, where
the session is out of the table and its start delivered, and not on another, where it was not
started. -/
theorem Inv.not_expected (hi : Inv d) {u v : Uuid} {l k : Link} {id : Uuid}
    (hl : d.links.lookup u = some l) (hk : d.links.lookup v = some k)
    (hm : Emission.closed id ∈ k.toControl) : ¬ l.Expects (sentOn d.control.app u) id := by
  intro hex
  obtain ⟨n, hn, hns⟩ := (hi.sound v k hk).started id (Or.inr (Or.inr ⟨_, hm, rfl⟩))
  obtain ⟨p, hp, hps⟩ : ∃ p ∈ sentOn d.control.app u, Says "session.start" p id := by
    rcases hex with hid | ⟨p, hp, hps⟩
    · obtain ⟨p, hp, hps⟩ := (hi.sound u l hl).started id (Or.inl hid)
      exact ⟨p, Channel.mem_of_received hp, hps⟩
    · exact ⟨p, Channel.mem_of_pending hp, hps⟩
  obtain rfl : u = v := hi.one_link hp (Channel.mem_of_received hn) hps hns
  obtain rfl : l = k := Option.some.inj (hl.symm.trans hk)
  rcases hex with hid | ⟨q, hq, hqs⟩
  · exact (hi.sound u l hl).closed_not_mem id hm hid
  · exact (hi.ground.startsFirst_on u).not_about_received hq hqs n hn hns.names

/-- **Every act keeps `Covered`** for the registered link while it is up. -/
theorem CoveredIfUp.act (hc : CoveredIfUp d) (hi : Inv d) (hf : FreshAct ⟨d, x, t⟩)
    (h : Joint.act cfg digest d x = some t) : CoveredIfUp t := by
  intro u l hb hl hu
  cases act_cases h with
  | @control e s hloc hs =>
    rcases hi.ground.linked.bridge_after hs hb with ⟨hold, -⟩ | ⟨req, rfl, -⟩
    · exact (hc u l hold hl hu).alone hi.ground (hi.sound u l hl) hold hloc hs
    · exact absurd hloc (by simp [isLocal])
  | @connect req socketId maxSessions s ha hs =>
    obtain rfl : u = socketId := by
      have hnew : s.app.inner.bridge = some ⟨socketId⟩ := by
        rw [step_app hs, Event.apply, if_pos ha]
        rfl
      exact congrArg SocketLink.id (Option.some.inj (hb.symm.trans hnew))
    -- nothing was ever put on the new link
    have hempty : sentOn s.app u = [] := by
      have hold : sentOn d.control.app u = [] := sentOn_new hi.ground (hf.2 u List.mem_cons_self)
      rw [step_app hs, Event.apply, if_pos ha]
      exact hold
    rw [Table.lookup_insert_eq, if_pos rfl] at hl
    obtain rfl := Option.some.inj hl
    intro id hex
    simp only [hempty] at hex
    rcases hex with hid | ⟨m, hm, -⟩
    · exact absurd hid List.not_mem_nil
    · exact absurd hm (by simp [Channel.pending])
  | @link socketId e k k' hk hs =>
    rcases Table.lookup_insert_cases hl with ⟨rfl, rfl⟩ | ⟨-, hl⟩
    · have hup : k.up = true := link_up hs hu
      exact (hc u k hb hk hup).link (hi.sound u k hk) (hi.ground.startsFirst_on u) hs hu
    · exact hc u l hb hl hu
  | @relay socketId times k m rest s hk hm hs =>
    have hold : d.control.app.inner.bridge = some ⟨u⟩ := by
      rcases hi.ground.linked.bridge_after hs hb with ⟨hold, -⟩ | ⟨req, he, -⟩
      · exact hold
      · exact absurd he (by simp)
    have hsent : sentOn s.app u = sentOn d.control.app u := by
      rw [step_app hs]
      exact congrArg (onLink u) (handleBridgeEvent_frame _ times d.control.app).2.2.2.2.2
    have hclosed : ∀ id, m = .closed id → Emission.closed id ∈ k.toControl := by
      rintro id rfl
      rw [hm]
      exact List.mem_cons_self
    rw [hsent]
    rcases Table.lookup_insert_cases hl with ⟨rfl, rfl⟩ | ⟨-, hl⟩
    · exact (hc u k hold hk hu).relay hs fun id he => hi.not_expected hk hk (hclosed id he)
    · exact (hc u l hold hl hu).relay hs fun id he => hi.not_expected hl hk (hclosed id he)
  | @disconnect socketId k s hk hdown hs =>
    rcases hi.ground.linked.bridge_after hs hb with ⟨hold, hne⟩ | ⟨req, he, -⟩
    · have hstale : d.control.app.inner.bridge ≠ some ⟨socketId⟩ := by
        intro hcur
        rw [hold] at hcur
        exact hne (by rw [← SocketLink.mk.inj (Option.some.inj hcur)])
      have happ := step_app hs
      rw [Event.apply, bridgeDisconnect_stale hstale] at happ
      rw [happ]
      exact hc u l hold hl hu
    · exact absurd he (by simp)

/-- **No orphaned listener.** In a run that draws no UUID twice, in every quiescent state, every
session in the table of a bridge is one the control plane has and has not closed. -/
theorem no_orphans {xs : List Act} (hf : FreshRun cfg digest xs) :
    ∀ d ∈ states cfg digest xs, Quiescent d →
      ∀ u l, d.links.lookup u = some l → ∀ id ∈ l.app.sessions,
        d.control.app.sessionOpen id = true := by
  intro d hd hq u l hl id hid
  have hi := inv_of_mem hf hd
  have hc : CoveredIfUp d := by
    refine Run.forall_states (P := CoveredIfUp) (fun u l _ hl => ?_) (fun y hy hc => ?_) d hd
    · exact absurd hl (by simp [Deployment.init])
    · exact hc.act (inv_before hf y hy) (hf y hy) (Run.mem_trace hy).2
  rcases hq u l hl with ⟨-, hdown⟩ | ⟨hb, hup, hquiet⟩
  · rw [(hi.sound u l hl).stopped_all hdown] at hid
    exact absurd hid List.not_mem_nil
  · rcases hc u l hb hl hup id (Or.inl hid) with hopen | ⟨m, hm, -⟩
    · exact hopen
    · rw [hquiet.received] at hm
      exact absurd hm List.not_mem_nil

/-- A bridge is lost while it starts a session; it comes back and starts another one. -/
def reconnectRun : List Act :=
  [.join "link-1" 64, .control (.create "first" 0), .link "link-1" .deliver,
    .link "link-1" (.lose 1 0), .disconnect "link-1", .link "link-1" (.resume ⟨none, true⟩),
    .link "link-1" .close, .join "link-2" 64, .control (.create "second" 0)] ++
    Act.serve "link-2" none ++ [.report "link-2"]

/-- `no_orphans` on that run. -/
theorem no_orphans_reconnect :
    ∃ l, (final livekitProductionConfig id reconnectRun).links.lookup "link-2" = some l ∧
      "second" ∈ l.app.sessions ∧
      (final livekitProductionConfig id reconnectRun).control.app.sessionOpen "second" = true := by
  have hsome : ((final livekitProductionConfig id reconnectRun).links.lookup "link-2").any
      (fun l => "second" ∈ l.app.sessions) = true := by decide +kernel
  obtain ⟨l, hl, hmem⟩ := (Option.any_eq_true _ _).mp hsome
  have hid : "second" ∈ l.app.sessions := by simpa using hmem
  exact ⟨l, hl, hid, no_orphans (by decide +kernel) _ (Run.final_mem_states _ _) (by decide +kernel)
    "link-2" l hl "second" hid⟩

end SenseVoice.Joint
