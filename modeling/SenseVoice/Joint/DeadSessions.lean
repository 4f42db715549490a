import SenseVoice.Joint.Invariants

/-!
# No dead session holds a slot

One bridge connects, once, and its link stays up. `Placed` follows a session the control plane has a
record of: its `session.start` is on the way, it is in the bridge's table, its handler is stopping it,
or what is on the way to the control plane closes its record (`Reported`). A failed start is the gap:
the bridge answers `asr.error` and takes the session out without a `session.closed`
(`notify=False`), and `handle_bridge_event` gives the record the state `"error"`, which counts as not
closed. `Reported` allows for it while the `asr.error` is on the way; `reportsFailure` is the act that
delivers it to a record that is still there.

Results:
* `Settled.link`, `Settled.alone`, `Settled.relay`: each kind of step keeps every record `Placed`;
* **`no_dead_sessions`**: in a run in which no failed start is reported to a record, in every quiet
  state, every session that is not closed is in the bridge's table;
* `dead_session`: a run with one failed start ends quiet, with the session open and the table empty.
-/

namespace SenseVoice.Joint

open Lib ControlPlane Bridge

/-! ## The setting -/

/-- The act loses no link, and it connects a bridge only if it is the first. -/
def staysUp (y : Run.Taken Deployment Act) : Bool :=
  match y.event with
  | .link _ (.lose _ _) => false
  | .connect _ _ _ => y.before.links.entries.isEmpty
  | _ => true

/-- The act delivers the answer to a failed or rejected `session.start`, and the control plane has a
record of the session. -/
def reportsFailure (y : Run.Taken Deployment Act) : Bool :=
  match y.event with
  | .relay socketId _ =>
    (y.before.links.lookup socketId).any fun l =>
      match l.toControl.head? with
      | some (.startFailed id _) => (y.before.control.app.inner.sessions.lookup id).isSome
      | _ => false
  | _ => false

/-- No message is on the way on any link, and no handler runs. -/
def AllQuiet (d : Deployment) : Prop :=
  ∀ u l, d.links.lookup u = some l → l.Quiet (sentOn d.control.app u)

instance (d : Deployment) : Decidable (AllQuiet d) := decidable_of_iff' _ Table.forall_lookup

/-- The session is in the table of a bridge. -/
def Deployment.bridged (d : Deployment) (id : Uuid) : Bool :=
  d.links.entries.any fun e => id ∈ e.2.app.sessions

theorem bridged_of_lookup {d : Deployment} {u id : Uuid} {l : Link}
    (hl : d.links.lookup u = some l) (hid : id ∈ l.app.sessions) : d.bridged id = true :=
  List.any_eq_true.mpr ⟨⟨u, l⟩, Table.lookup_eq_some.mp hl, by simpa using hid⟩

/-! ## Where a session is -/

/-- Whether the record is open after the control plane has handled one more emission. -/
def openNext (id : Uuid) (b : Bool) (m : Emission) : Bool :=
  if m.id = id then (mark m).elim b (· != .closed) else b

/-- Whether the record is open after the control plane has handled the emissions. -/
def openAfter (id : Uuid) (b : Bool) (ms : List Emission) : Bool := ms.foldl (openNext id) b

/-- What is on the way closes the record, or reports that the start has failed. -/
def Reported (id : Uuid) (b : Bool) (ms : List Emission) : Prop :=
  (∃ message, Emission.startFailed id message ∈ ms) ∨ openAfter id b ms = false

/-- Where a session is that has a record, open if `b`. -/
def Placed (sent : List Value) (l : Link) (id : Uuid) (b : Bool) : Prop :=
  (∃ m ∈ Channel.pending sent l.delivered, Says "session.start" m id) ∨ id ∈ l.app.sessions ∨
    l.app.handler = .stopping id ∨ Reported id b l.toControl

theorem openAfter_concat (id : Uuid) (b : Bool) (ms : List Emission) (m : Emission) :
    openAfter id b (ms ++ [m]) = openNext id (openAfter id b ms) m := by
  unfold openAfter
  rw [List.foldl_append]
  rfl

/-- A closed record stays closed where an open one is closed. -/
theorem openAfter_false {id : Uuid} {b : Bool} {ms : List Emission}
    (h : openAfter id b ms = false) : openAfter id false ms = false := by
  induction ms generalizing b with
  | nil => rfl
  | cons m ms ih =>
    have hstep : openNext id false m = false ∨ openNext id false m = openNext id b m := by
      unfold openNext
      split
      · cases mark m with
        | none => exact Or.inl rfl
        | some st => exact Or.inr rfl
      · exact Or.inl rfl
    rcases hstep with hfalse | hsame
    · exact (congrArg (openAfter id · ms) hfalse).trans (ih h)
    · exact (congrArg (openAfter id · ms) hsame).trans h

theorem Reported.append {id : Uuid} {b : Bool} {ms out : List Emission} (h : Reported id b ms)
    (hne : ∀ m ∈ out, m.id ≠ id) : Reported id b (ms ++ out) := by
  rcases h with ⟨message, hm⟩ | h
  · exact Or.inl ⟨message, List.mem_append_left _ hm⟩
  · refine Or.inr ?_
    induction out generalizing ms with
    | nil => rwa [List.append_nil]
    | cons m out ih =>
      rw [← List.singleton_append, ← List.append_assoc]
      refine ih (fun m' hm' => hne m' (List.mem_cons_of_mem _ hm')) ?_
      rw [openAfter_concat, openNext, if_neg (hne m List.mem_cons_self)]
      exact h

/-- A session the link's step is not about stays where it is. -/
theorem Placed.put {sent : List Value} {l : Link} {id : Uuid} {b : Bool} (h : Placed sent l id b)
    (hu : l.up = true) {n : Nat} {r : BridgeApp × List Emission}
    (hpending : ∀ m ∈ Channel.pending sent l.delivered, Says "session.start" m id →
      m ∈ Channel.pending sent n)
    (hsessions : id ∈ l.app.sessions → id ∈ r.1.sessions)
    (hstopping : l.app.handler = .stopping id → r.1.handler = .stopping id)
    (hout : ∀ m ∈ r.2, m.id ≠ id) : Placed sent (Link.put { l with delivered := n } r) id b := by
  rcases h with ⟨m, hm, hstart⟩ | hid | hst | hrep
  · exact Or.inl ⟨m, hpending m hm hstart, hstart⟩
  · exact Or.inr (Or.inl (hsessions hid))
  · exact Or.inr (Or.inr (Or.inl (hstopping hst)))
  · refine Or.inr (Or.inr (Or.inr ?_))
    have htoControl : (Link.put { l with delivered := n } r).toControl = l.toControl ++ r.2 :=
      if_pos hu
    rw [htoControl]
    exact hrep.append hout

/-! ## One link -/

/-- On a link that is up, every session with a record is `Placed`; a failed start that the handler
still works on has been reported. -/
structure Settled (a : AppState) (sent : List Value) (l : Link) : Prop where
  up : l.up = true
  placed : ∀ id r, a.inner.sessions.lookup id = some r → Placed sent l id r.isOpen
  failing : ∀ id r, a.inner.sessions.lookup id = some r → l.app.handler = .failing id →
    ∃ message, Emission.startFailed id message ∈ l.toControl

namespace Settled

variable {a : AppState} {sent : List Value} {l l' : Link}

/-- A message that is handled leaves every session `Placed`. -/
theorem deliver (h : Settled a sent l) (hidle : l.app.handler = .idle) {m : Value}
    (hm : sent[l.delivered]? = some m) {r : BridgeApp × List Emission}
    (hh : BridgeApp.Handled m l.app r)
    (hsound : Sound sent (Link.put { l with delivered := l.delivered + 1 } r)) :
    Settled a sent (Link.put { l with delivered := l.delivered + 1 } r) := by
  have htoControl : (Link.put { l with delivered := l.delivered + 1 } r).toControl =
      l.toControl ++ r.2 := if_pos h.up
  -- the start of any other session is still on the way
  have hpending : ∀ {id}, ¬ Says "session.start" m id →
      ∀ p ∈ Channel.pending sent l.delivered, Says "session.start" p id →
        p ∈ Channel.pending sent (l.delivered + 1) := by
    intro id hno p hp hstart
    rw [Channel.pending_of_next hm] at hp
    rcases List.mem_cons.mp hp with rfl | hp
    · exact absurd hstart hno
    · exact hp
  have hbusy : ∀ {id : Uuid} {c : Prop}, l.app.handler = .stopping id → c :=
    fun hst => absurd (hidle.symm.trans hst) (by simp)
  refine ⟨h.up, fun id rec hrec => ?_, fun id rec hrec hf => ?_⟩
  · have hp := h.placed id rec hrec
    cases hh with
    | @replaced k => exact absurd rfl (hsound.not_replacing k)
    | @began k _ hstart _ hb =>
      by_cases hk : k = id
      · subst hk
        cases hb with
        | rejected message =>
          refine Or.inr (Or.inr (Or.inr (Or.inl ⟨message, ?_⟩)))
          rw [htoControl]
          exact List.mem_append_right _ List.mem_cons_self
        | starting => exact Or.inr (Or.inl (List.mem_append_right _ List.mem_cons_self))
      · have hno : ¬ Says "session.start" m id := fun hs => hk (hstart.id_unique hs)
        cases hb with
        | rejected message =>
          exact hp.put h.up (hpending hno) (fun hid => hid) hbusy (by simpa [Emission.id])
        | starting =>
          exact hp.put h.up (hpending hno) (fun hid => List.mem_append_left _ hid) hbusy (by simp)
    | @stopped k hstop =>
      by_cases hk : k = id
      · subst hk
        exact Or.inr (Or.inr (Or.inl rfl))
      · have hno : ¬ Says "session.start" m id :=
          fun hs => absurd (hstop.type_unique hs) (by simp)
        exact hp.put h.up (hpending hno)
          (fun hid => BridgeApp.mem_without.mpr ⟨hid, fun he => hk he.symm⟩) hbusy (by simp)
    | passed hs => exact hp.put h.up (hpending (hs id)) (fun hid => hid) hbusy (by simp)
  · cases hh with
    | replaced => exact absurd hf (by simp [Link.put])
    | began _ _ hb =>
      cases hb with
      | rejected => exact absurd hf (by simp [Link.put, BridgeApp.finish])
      | starting => exact absurd hf (by simp [Link.put])
    | stopped => exact absurd hf (by simp [Link.put])
    | @passed handler _ _ hhandler =>
      rcases hhandler with rfl | rfl
      · exact absurd (hidle.symm.trans hf) (by simp)
      · exact absurd hf (by simp [Link.put])

/-- A handler that goes on leaves every session `Placed`. -/
theorem resume (h : Settled a sent l) (hsound : Sound sent l) {r : BridgeApp × List Emission}
    (hh : BridgeApp.Resumed l.app r) : Settled a sent (l.put r) := by
  have htoControl : (l.put r).toControl = l.toControl ++ r.2 := if_pos h.up
  refine ⟨h.up, fun id rec hrec => ?_, fun id rec hrec hf => ?_⟩
  · have hp := h.placed id rec hrec
    -- a session the handler does not work on
    have hkeep : (id ∈ l.app.sessions → id ∈ r.1.sessions) → l.app.handler ≠ .stopping id →
        (∀ m ∈ r.2, m.id ≠ id) → Placed sent (l.put r) id rec.isOpen := fun hs ht hout =>
      hp.put (n := l.delivered) h.up (fun _ hm _ => hm) hs (fun hst => absurd hst ht) hout
    cases hh with
    | began hk => exact absurd hk (hsound.not_replacing _)
    | @ready k hk =>
      by_cases hid : k = id
      · subst hid
        exact Or.inr (Or.inl (hsound.starting_mem k hk))
      · exact hkeep (fun hs => hs) (by simp [hk]) (by simpa [Emission.id])
    | @failed k message hk =>
      by_cases hid : k = id
      · subst hid
        exact Or.inr (Or.inl (hsound.starting_mem k hk))
      · exact hkeep (fun hs => hs) (by simp [hk]) (by simpa [Emission.id])
    | @unwound k hk =>
      by_cases hid : k = id
      · subst hid
        obtain ⟨message, hm⟩ := h.failing k rec hrec hk
        refine Or.inr (Or.inr (Or.inr (Or.inl ⟨message, ?_⟩)))
        rw [htoControl]
        exact List.mem_append_left _ hm
      · exact hkeep (fun hs => BridgeApp.mem_without.mpr ⟨hs, fun he => hid he.symm⟩) (by simp [hk])
          (by simp)
    | @closed k hk =>
      by_cases hid : k = id
      · subst hid
        refine Or.inr (Or.inr (Or.inr (Or.inr ?_)))
        rw [htoControl, openAfter_concat]
        exact if_pos rfl
      · refine hkeep (fun hs => hs) ?_ (by simpa [Emission.id])
        rw [hk]
        exact fun he => hid (Handler.stopping.inj he)
    | returned _ ht => exact hkeep (fun hs => hs) (ht id) (by simp)
  · rw [htoControl]
    cases hh with
    | began hk => exact absurd hk (hsound.not_replacing _)
    | failed hk =>
      obtain rfl := Handler.failing.inj hf
      exact ⟨_, List.mem_append_right _ List.mem_cons_self⟩
    | ready => exact absurd hf (by simp [Link.put, BridgeApp.finish])
    | unwound => exact absurd hf (by simp [Link.put])
    | closed => exact absurd hf (by simp [Link.put, BridgeApp.finish])
    | returned => exact absurd hf (by simp [Link.put, BridgeApp.finish])

/-- An event of a running session leaves every session `Placed`. -/
theorem emit (h : Settled a sent l) (hsound : Sound sent l) {event : RunningEvent}
    (he : l.app.emitting event.id = true) :
    Settled a sent (l.put (l.app, [.running event])) := by
  have htoControl : (l.put (l.app, [.running event])).toControl = l.toControl ++ [.running event] :=
    if_pos h.up
  refine ⟨h.up, fun id rec hrec => ?_, fun id rec hrec hf => ?_⟩
  · by_cases hid : event.id = id
    · subst hid
      simp only [BridgeApp.emitting, Bool.or_eq_true, decide_eq_true_eq, beq_iff_eq] at he
      rcases he with (hin | hst) | hrep
      · exact Or.inr (Or.inl hin)
      · exact Or.inr (Or.inr (Or.inl hst))
      · exact absurd hrep (hsound.not_replacing _)
    · exact (h.placed id rec hrec).put (n := l.delivered) h.up (fun _ hm _ => hm) (fun hs => hs)
        (fun hst => hst) (by simpa [Emission.id])
  · obtain ⟨message, hm⟩ := h.failing id rec hrec hf
    rw [htoControl]
    exact ⟨message, List.mem_append_left _ hm⟩

/-- **A step of a link that stays up leaves every session `Placed`.** -/
theorem link (h : Settled a sent l) (hsound : Sound sent l) (hs : StartsFirst sent) {e : LinkEvent}
    (he : l.step sent e = some l') (hu : ∀ arriving returning, e ≠ .lose arriving returning) :
    Settled a sent l' := by
  have hsound' := hsound.step hs he
  cases link_cases he with
  | delivered _ hidle hm hh => exact h.deliver hidle hm hh hsound'
  | resumed _ hh => exact h.resume hsound hh
  | emitted _ hem => exact h.emit hsound hem
  | lost => exact absurd rfl (hu _ _)
  | closed hdown => exact absurd (hdown.symm.trans h.up) (by simp)

/-- **A step of the control plane on its own leaves every session `Placed`**: a new session has its
start on the way, and a closed one needs nothing more. -/
theorem alone {cfg : Config} {digest : String → String} {s t : System} {e : Event} {u : Uuid}
    (h : Settled s.app (sentOn s.app u) l) (hg : Ground s) (hsound : Sound (sentOn s.app u) l)
    (hb : s.app.inner.bridge = some ⟨u⟩) (hl : isLocal e = true)
    (hs : step cfg digest s e = some t) (hf : FreshStep ⟨s, e, t⟩) :
    Settled t.app (sentOn t.app u) l := by
  obtain ⟨out, hout, -⟩ := step_sent hs
  have hpending : Channel.pending (sentOn t.app u) l.delivered =
      Channel.pending (sentOn s.app u) l.delivered ++ onLink u out := by
    rw [sentOn_append hout u, Channel.pending_append hsound.delivered_le]
  have hgrow : ∀ {id b c}, (openAfter id b l.toControl = false → openAfter id c l.toControl = false) →
      Placed (sentOn s.app u) l id b → Placed (sentOn t.app u) l id c := by
    intro id b c hclose hp
    rcases hp with ⟨m, hm, hstart⟩ | hp | hp | hp | hp
    · refine Or.inl ⟨m, ?_, hstart⟩
      rw [hpending]
      exact List.mem_append_left _ hm
    · exact Or.inr (Or.inl hp)
    · exact Or.inr (Or.inr (Or.inl hp))
    · exact Or.inr (Or.inr (Or.inr (Or.inl hp)))
    · exact Or.inr (Or.inr (Or.inr (Or.inr (hclose hp))))
  have hrecord : ∀ id r, t.app.inner.sessions.lookup id = some r →
      (∃ i, e = .createSession i ∧ i.id = id) ∨ ∃ r₀, s.app.inner.sessions.lookup id = some r₀ ∧
        (r = r₀ ∨ r = r₀.close) := by
    intro id r hr
    have hstep := step_session hs id
    rw [hr] at hstep
    generalize hbefore : s.app.inner.sessions.lookup id = o at hstep
    cases hstep with
    | same => exact Or.inr ⟨r, rfl, Or.inl rfl⟩
    | marked hm =>
      cases e with
      | bridgeMessage socketId message times => exact absurd hl (by simp [isLocal])
      | _ => exact absurd hm (by simp [Event.marks])
    | @closed r₀ => exact Or.inr ⟨r₀, rfl, Or.inr rfl⟩
    | created he hid => exact Or.inl ⟨_, he, hid⟩
  refine ⟨h.up, fun id r hr => ?_, fun id r hr hfail => ?_⟩
  · rcases hrecord id r hr with ⟨i, rfl, rfl⟩ | ⟨r₀, hr₀, rfl | rfl⟩
    · obtain ⟨link, m, hlive, hone, hstart⟩ := created_sent hs (hg.no_record hf) hr
      obtain rfl : link = ⟨u⟩ :=
        Option.some.inj ((AppState.liveBridge_eq_some.mp hlive).1.symm.trans hb)
      obtain rfl : out = [(u, m)] := List.append_cancel_left (hout.symm.trans hone)
      refine Or.inl ⟨m, ?_, hstart⟩
      rw [hpending]
      exact List.mem_append_right _ (mem_onLink.mpr List.mem_cons_self)
    · exact hgrow (fun hclosed => hclosed) (h.placed id r hr₀)
    · exact hgrow openAfter_false (h.placed id r₀ hr₀)
  · rcases hrecord id r hr with ⟨i, rfl, rfl⟩ | ⟨r₀, hr₀, -⟩
    · -- the handler works on a session that was started before
      obtain ⟨m, hm, hstart⟩ := hsound.started i.id (Or.inr (Or.inl (by rw [hfail]; rfl)))
      have hdrawn := hg.named_drawn (mem_onLink.mp (Channel.mem_of_received hm)) hstart.names
      exact absurd hdrawn (hf.2 i.id List.mem_cons_self)
    · exact h.failing id r₀ hr₀ hfail

/-- **An emission leaves every session `Placed`**, unless it reports a failed start to a record. -/
theorem relay {cfg : Config} {digest : String → String} {s t : System} {v : Uuid}
    {times : RelayTimes} {m : Emission} {rest : List Emission} (h : Settled s.app sent l)
    (hm : l.toControl = m :: rest)
    (hs : step cfg digest s (.bridgeMessage v (some m.toValue) times) = some t)
    (hno : ∀ id message, m = .startFailed id message → s.app.inner.sessions.lookup id = none) :
    Settled t.app sent { l with toControl := rest } := by
  have hrecord : ∀ id r, t.app.inner.sessions.lookup id = some r →
      ∃ r₀, s.app.inner.sessions.lookup id = some r₀ ∧ r.isOpen = openNext id r₀.isOpen m := by
    intro id r hr
    rw [step_app hs, Event.apply, (handleBridgeEvent_frame _ times s.app).1 id] at hr
    obtain ⟨r₀, hr₀, rfl⟩ := Option.map_eq_some_iff.mp hr
    refine ⟨r₀, hr₀, ?_⟩
    unfold markSession openNext
    rw [marks_toValue]
    split
    · rename_i st hst
      split at hst
      · rw [if_pos ‹_›, hst]
        rfl
      · exact absurd hst (by simp)
    · rename_i hst
      split
      · rw [if_pos ‹_›] at hst
        rw [hst]
        rfl
      · rfl
  have hhead : ∀ id r message, s.app.inner.sessions.lookup id = some r →
      Emission.startFailed id message ∈ l.toControl → Emission.startFailed id message ∈ rest := by
    intro id r message hr hmem
    rw [hm] at hmem
    rcases List.mem_cons.mp hmem with rfl | hmem
    · exact absurd (hr.symm.trans (hno id message rfl)) (by simp)
    · exact hmem
  refine ⟨h.up, fun id r hr => ?_, fun id r hr hfail => ?_⟩
  · obtain ⟨r₀, hr₀, hopen⟩ := hrecord id r hr
    rcases h.placed id r₀ hr₀ with hp | hp | hp | ⟨message, hp⟩ | hp
    · exact Or.inl hp
    · exact Or.inr (Or.inl hp)
    · exact Or.inr (Or.inr (Or.inl hp))
    · exact Or.inr (Or.inr (Or.inr (Or.inl ⟨message, hhead id r₀ message hr₀ hp⟩)))
    · refine Or.inr (Or.inr (Or.inr (Or.inr ?_)))
      rw [hm] at hp
      rw [hopen]
      exact hp
  · obtain ⟨r₀, hr₀, -⟩ := hrecord id r hr
    obtain ⟨message, hp⟩ := h.failing id r₀ hr₀ hfail
    exact ⟨message, hhead id r₀ message hr₀ hp⟩

end Settled

/-! ## Runs -/

/-- The state of a run in which one bridge has connected and its link has stayed up. -/
structure Steady (d : Deployment) : Prop where
  linked : ∀ link, d.control.app.inner.bridge = some link → ∃ l, d.links.lookup link.id = some l
  registered : ∀ u l, d.links.lookup u = some l → d.control.app.inner.bridge = some ⟨u⟩
  settled : ∀ u l, d.links.lookup u = some l → Settled d.control.app (sentOn d.control.app u) l
  recorded : ∀ id r, d.control.app.inner.sessions.lookup id = some r →
    ∃ link, d.control.app.inner.bridge = some link

theorem steady_init : Steady .init where
  linked _ h := absurd h (by simp [Deployment.init, System.init, AppState.new, Inner.empty])
  registered _ _ h := absurd h (by simp [Deployment.init])
  settled _ _ h := absurd h (by simp [Deployment.init])
  recorded _ _ h := absurd h (by simp [Deployment.init, System.init, AppState.new, Inner.empty])

variable {cfg : Config} {digest : String → String} {d t : Deployment} {x : Act}

/-- A step of the control plane on its own leaves the registered bridge. -/
theorem bridge_alone {s s' : System} {e : Event} (hl : Linked s) (hloc : isLocal e = true)
    (h : step cfg digest s e = some s') : s'.app.inner.bridge = s.app.inner.bridge := by
  rcases step_bridge h with hsame | ⟨-, link, hb, hgone⟩ | ⟨req, socketId, rfl, -⟩ |
    ⟨socketId, rfl, -⟩
  · exact hsame
  · exact absurd hgone (hl.alive link hb)
  · exact absurd hloc (by simp [isLocal])
  · exact absurd hloc (by simp [isLocal])

namespace Steady

/-- A step of the control plane on its own: a session is created only while a bridge is registered. -/
theorem control (hst : Steady d) (hi : Inv d) {e : Event} {s : System} (hloc : isLocal e = true)
    (hs : step cfg digest d.control e = some s) (hf : FreshStep ⟨d.control, e, s⟩) :
    Steady { d with control := s } := by
  have hbridge := bridge_alone hi.ground.linked hloc hs
  refine ⟨fun link hb => hst.linked link (hbridge.symm.trans hb),
    fun u l hl => hbridge.trans (hst.registered u l hl), fun u l hl => ?_, fun id r hr => ?_⟩
  · exact (hst.settled u l hl).alone hi.ground (hi.sound u l hl) (hst.registered u l hl) hloc hs hf
  · rw [hbridge]
    have hstep := step_session hs id
    rw [hr] at hstep
    generalize hbefore : d.control.app.inner.sessions.lookup id = o at hstep
    cases hstep with
    | same => exact hst.recorded id r hbefore
    | @marked r₀ => exact hst.recorded id r₀ hbefore
    | @closed r₀ => exact hst.recorded id r₀ hbefore
    | @created i _ _ he hid =>
      subst he
      subst hid
      obtain ⟨link, m, hlive, -⟩ := created_sent hs (hi.ground.no_record hf) hr
      exact ⟨link, (AppState.liveBridge_eq_some.mp hlive).1⟩

/-- The bridge connects for the first time, and there is no session yet. -/
theorem connect (hst : Steady d) {req : Request} {socketId : Uuid} {maxSessions : Int} {s : System}
    (ha : bridgeAuthorized req cfg = true)
    (hs : step cfg digest d.control (.bridgeConnect req socketId) = some s)
    (hup : d.links.entries.isEmpty = true) :
    Steady ⟨s, d.links.insert socketId (.new maxSessions)⟩ := by
  have hempty : ∀ u, d.links.lookup u = none := by
    intro u
    by_contra hsome
    obtain ⟨l, hl⟩ := Option.ne_none_iff_exists'.mp hsome
    have hnil : d.links.entries = [] := List.isEmpty_iff.mp hup
    have hmem := Table.lookup_eq_some.mp hl
    rw [hnil] at hmem
    exact absurd hmem List.not_mem_nil
  have happ := step_app hs
  rw [Event.apply, if_pos ha] at happ
  have hbridge : s.app.inner.bridge = some ⟨socketId⟩ := by
    rw [happ]
    rfl
  have hnorec : ∀ id r, s.app.inner.sessions.lookup id ≠ some r := by
    intro id r hr
    rw [happ] at hr
    obtain ⟨link, hb⟩ := hst.recorded id r hr
    obtain ⟨l, hl⟩ := hst.linked link hb
    exact absurd ((hempty link.id).symm.trans hl) (by simp)
  refine ⟨fun link hb => ⟨.new maxSessions, ?_⟩, fun u l hl => ?_, fun u l hl => ?_,
    fun id r hr => absurd hr (hnorec id r)⟩
  · obtain rfl := Option.some.inj (hbridge.symm.trans hb)
    exact AList.lookup_insert _
  · rcases Table.lookup_insert_cases hl with ⟨rfl, -⟩ | ⟨-, hl⟩
    · exact hbridge
    · exact absurd ((hempty u).symm.trans hl) (by simp)
  · rcases Table.lookup_insert_cases hl with ⟨rfl, rfl⟩ | ⟨-, hl⟩
    · exact ⟨rfl, fun id r hr => absurd hr (hnorec id r), fun id r hr => absurd hr (hnorec id r)⟩
    · exact absurd ((hempty u).symm.trans hl) (by simp)

/-- A step of a link that stays up. -/
theorem link (hst : Steady d) (hi : Inv d) {socketId : Uuid} {e : LinkEvent} {l l' : Link}
    (hl : d.links.lookup socketId = some l) (hs : l.step (sentOn d.control.app socketId) e = some l')
    (hu : ∀ arriving returning, e ≠ .lose arriving returning) :
    Steady { d with links := d.links.insert socketId l' } := by
  refine ⟨fun link hb => ?_, fun u k hk => ?_, fun u k hk => ?_, hst.recorded⟩
  · rw [Table.lookup_insert_eq]
    split
    · exact ⟨l', rfl⟩
    · exact hst.linked link hb
  · rcases Table.lookup_insert_cases hk with ⟨rfl, -⟩ | ⟨-, hk⟩
    · exact hst.registered u l hl
    · exact hst.registered u k hk
  · rcases Table.lookup_insert_cases hk with ⟨rfl, rfl⟩ | ⟨-, hk⟩
    · exact (hst.settled u l hl).link (hi.sound u l hl) (hi.ground.startsFirst_on u) hs hu
    · exact hst.settled u k hk

/-- An emission reaches the control plane. -/
theorem relay (hst : Steady d) {socketId : Uuid} {times : RelayTimes} {l : Link} {m : Emission}
    {rest : List Emission} {s : System} (hl : d.links.lookup socketId = some l) (hm : l.toControl = m :: rest)
    (hs : step cfg digest d.control (.bridgeMessage socketId (some m.toValue) times) = some s)
    (hno : ∀ id message, m = .startFailed id message → d.control.app.inner.sessions.lookup id = none) :
    Steady ⟨s, d.links.insert socketId { l with toControl := rest }⟩ := by
  have hframe := handleBridgeEvent_frame (some m.toValue) times d.control.app
  have hbridge : s.app.inner.bridge = d.control.app.inner.bridge := by
    rw [step_app hs]
    exact hframe.2.2.1
  have hsent : ∀ u, sentOn s.app u = sentOn d.control.app u := by
    intro u
    rw [step_app hs]
    exact congrArg (onLink u) hframe.2.2.2.2.2
  -- one bridge is registered, so the emission comes from the only link
  have honly : ∀ u k, d.links.lookup u = some k → u = socketId := fun u k hk =>
    congrArg SocketLink.id
      (Option.some.inj ((hst.registered u k hk).symm.trans (hst.registered socketId l hl)))
  refine ⟨fun link hb => ?_, fun u k hk => ?_, fun u k hk => ?_, fun id r hr => ?_⟩
  · rw [Table.lookup_insert_eq]
    split
    · exact ⟨_, rfl⟩
    · exact hst.linked link (hbridge.symm.trans hb)
  · rw [hbridge]
    rcases Table.lookup_insert_cases hk with ⟨rfl, -⟩ | ⟨-, hk⟩
    · exact hst.registered u l hl
    · exact hst.registered u k hk
  · rw [hsent u]
    rcases Table.lookup_insert_cases hk with ⟨rfl, rfl⟩ | ⟨hne, hk⟩
    · exact (hst.settled u l hl).relay hm hs hno
    · exact absurd (honly u k hk) hne
  · rw [hbridge]
    rw [step_app hs, Event.apply, hframe.1 id] at hr
    obtain ⟨r₀, hr₀, -⟩ := Option.map_eq_some_iff.mp hr
    exact hst.recorded id r₀ hr₀

/-- **Every act keeps `Steady`**, while the link stays up and no failed start is reported to a
record. -/
theorem act (hst : Steady d) (hi : Inv d) (hf : FreshAct ⟨d, x, t⟩)
    (h : Joint.act cfg digest d x = some t) (hup : staysUp ⟨d, x, t⟩ = true)
    (hno : reportsFailure ⟨d, x, t⟩ = false) : Steady t := by
  cases act_cases h with
  | control hloc hs => exact hst.control hi hloc hs hf
  | connect ha hs => exact hst.connect ha hs hup
  | link hl hs =>
    refine hst.link hi hl hs ?_
    rintro arriving returning rfl
    exact absurd hup (by simp [staysUp])
  | relay hl hm hs =>
    refine hst.relay hl hm hs ?_
    rintro id message rfl
    simpa [reportsFailure, hl, hm] using hno
  | disconnect hl hdown => exact absurd (hdown.symm.trans (hst.settled _ _ hl).up) (by simp)

end Steady

/-- **No dead session holds a slot**, as long as no failed or rejected start is reported to a record:
in a run that draws no UUID twice, with one bridge whose link stays up, in every state with no message
on the way and no handler running, every session that is not closed is in the bridge's table. -/
theorem no_dead_sessions {xs : List Act} (hf : FreshRun cfg digest xs)
    (hup : ∀ y ∈ trace cfg digest xs, staysUp y = true)
    (hno : ∀ y ∈ trace cfg digest xs, reportsFailure y = false) :
    ∀ d ∈ states cfg digest xs, AllQuiet d →
      ∀ id, d.control.app.sessionOpen id = true → d.bridged id = true := by
  intro d hd hq id hopen
  have hst : Steady d := by
    refine Run.forall_states (P := Steady) steady_init (fun y hy hst => ?_) d hd
    exact hst.act (inv_before hf y hy) (hf y hy) (Run.mem_trace hy).2 (hup y hy) (hno y hy)
  obtain ⟨r, hr, hro⟩ := sessionOpen_iff.mp hopen
  obtain ⟨link, hb⟩ := hst.recorded id r hr
  obtain ⟨l, hl⟩ := hst.linked link hb
  have hquiet := hq link.id l hl
  have hplaced := (hst.settled link.id l hl).placed id r hr
  unfold Placed at hplaced
  rw [hquiet.received, hquiet.relayed, hquiet.idle] at hplaced
  rcases hplaced with ⟨m, hm, -⟩ | hin | hstop | ⟨message, hm⟩ | hclosed
  · exact absurd hm List.not_mem_nil
  · exact bridged_of_lookup hl hin
  · exact absurd hstop (by simp)
  · exact absurd hm List.not_mem_nil
  · exact absurd (hro.symm.trans hclosed) (by simp)

/-- One session starts, one is deleted while the bridge starts it. -/
def stopRun : List Act :=
  [.join "link" 64, .control (.create "first" 0), .control (.create "second" 0)] ++
    Act.serve "link" none ++ [.link "link" .deliver] ++
    (Event.operate (.delete "second")).map Act.control ++
    [.link "link" (.resume ⟨none, false⟩), .report "link", .report "link"] ++
    Act.serve "link" none ++ [.report "link"]

/-- `no_dead_sessions` on that run. -/
theorem no_dead_sessions_stop :
    AllQuiet (final livekitProductionConfig id stopRun) ∧
      (final livekitProductionConfig id stopRun).control.app.sessionOpen "first" = true ∧
      (final livekitProductionConfig id stopRun).bridged "first" = true := by
  have hq : AllQuiet (final livekitProductionConfig id stopRun) := by decide +kernel
  have ho : (final livekitProductionConfig id stopRun).control.app.sessionOpen "first" = true := by
    decide +kernel
  exact ⟨hq, ho, no_dead_sessions (by decide +kernel) (by decide +kernel) (by decide +kernel) _
    (Run.final_mem_states _ _) hq "first" ho⟩

/-- The receiver of the first session fails to join the room. -/
def failedStartRun : List Act :=
  [.join "link" 64, .control (.create "first" 0)] ++ Act.serve "link" (some "join failed") ++
    [.report "link", .link "link" (.resume ⟨none, false⟩), .link "link" (.resume ⟨none, false⟩)]

/-- The session stays open, and nothing is left on the way that would close it. -/
theorem dead_session :
    livekitProductionConfig.validate.toBool = true ∧
      FreshRun livekitProductionConfig id failedStartRun ∧
      (∀ y ∈ trace livekitProductionConfig id failedStartRun, staysUp y = true) ∧
      ¬ ∀ d ∈ states livekitProductionConfig id failedStartRun, AllQuiet d →
        ∀ k, d.control.app.sessionOpen k = true → d.bridged k = true := by
  refine ⟨by decide +kernel, by decide +kernel, by decide +kernel, fun h => ?_⟩
  have hbad := h _ (Run.final_mem_states _ _) (by decide +kernel) "first" (by decide +kernel)
  exact absurd hbad (by decide +kernel)

end SenseVoice.Joint
