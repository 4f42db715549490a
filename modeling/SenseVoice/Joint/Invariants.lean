import SenseVoice.Joint.Messages

/-!
# What holds of every link

`Sound sent l` relates a link to the messages `sent` on it: the bridge has touched a session (it is in
the table, its handler works on it, or an emission about it is on the way) only after its
`session.start` was delivered, no start finds a session of its id, and once the answer to a stop is on
the way the session is out of the table. `Inv` is that for every link, with `Ground` for the control
plane.

Results:
* `Sound.step`: a step of a link keeps `Sound`, because `session.start` comes first on it;
* **`inv_of_mem`**: `Inv` in every state of a run that draws no UUID twice;
* `Inv.one_link`: a session is started on one link only.
-/

namespace SenseVoice.Joint

open Lib ControlPlane Bridge

/-! ## The messages on one link -/

theorem mem_onLink {u : Uuid} {out : List (Uuid × Value)} {m : Value} :
    m ∈ onLink u out ↔ (u, m) ∈ out := by
  simp only [onLink, List.mem_map, List.mem_filter, decide_eq_true_eq]
  constructor
  · rintro ⟨⟨_, _⟩, ⟨hp, rfl⟩, rfl⟩
    exact hp
  · intro h
    exact ⟨(u, m), ⟨h, rfl⟩, rfl⟩

theorem sentOn_append {a b : AppState} {out : List (Uuid × Value)}
    (h : b.bridgeOut = a.bridgeOut ++ out) (u : Uuid) :
    sentOn b u = sentOn a u ++ onLink u out := by
  unfold sentOn onLink
  rw [h, List.filter_append, List.map_append]

/-- On one link the `session.start` of a session comes before every other message about it. -/
abbrev StartsFirst (sent : List Value) : Prop :=
  Channel.OpensFirst (Says "session.start") Names sent

theorem Ground.startsFirst_on {s : System} (hg : Ground s) (u : Uuid) :
    StartsFirst (sentOn s.app u) :=
  (hg.startsFirst.filter _).map _ fun _ _ h => h

/-- Nothing has been put on a link whose id is new. -/
theorem sentOn_new {s : System} (hg : Ground s) {u : Uuid} (hu : u ∉ s.drawn) :
    sentOn s.app u = [] := by
  refine List.eq_nil_iff_forall_not_mem.mpr fun m hm => ?_
  exact hu (hg.linked.out_drawn _ (mem_onLink.mp hm))

/-! ## One link -/

/-- The session a handler works on. -/
def handling : Handler → Option Uuid
  | .idle => none
  | .replacing id => some id
  | .starting id => some id
  | .failing id => some id
  | .unwinding id => some id
  | .serving => none
  | .stopping id => some id

/-- The bridge has had to do with the session. -/
def Link.Touched (l : Link) (id : Uuid) : Prop :=
  id ∈ l.app.sessions ∨ handling l.app.handler = some id ∨ ∃ m ∈ l.toControl, m.id = id

/-- A link and the messages sent on it. -/
structure Sound (sent : List Value) (l : Link) : Prop where
  delivered_le : l.delivered ≤ sent.length
  started : ∀ id, l.Touched id → ∃ m ∈ Channel.received sent l.delivered, Says "session.start" m id
  not_replacing : ∀ id, l.app.handler ≠ .replacing id
  starting_mem : ∀ id, l.app.handler = .starting id → id ∈ l.app.sessions
  stopping_not_mem : ∀ id, l.app.handler = .stopping id → id ∉ l.app.sessions
  closed_not_mem : ∀ id, Emission.closed id ∈ l.toControl → id ∉ l.app.sessions
  stopped_all : l.running = false → l.app.sessions = []

theorem sound_new (sent : List Value) (maxSessions : Int) : Sound sent (.new maxSessions) where
  delivered_le := Nat.zero_le _
  started id h := by
    rcases h with h | h | ⟨m, h, -⟩
    · exact absurd h List.not_mem_nil
    · exact absurd h (by simp [Link.new, BridgeApp.new, handling])
    · exact absurd h List.not_mem_nil
  not_replacing _ := by simp [Link.new, BridgeApp.new]
  starting_mem _ h := absurd h (by simp [Link.new, BridgeApp.new])
  stopping_not_mem _ h := absurd h (by simp [Link.new, BridgeApp.new])
  closed_not_mem _ h := absurd h List.not_mem_nil
  stopped_all _ := rfl

namespace Sound

variable {sent out : List Value} {l l' : Link}

/-- Sending keeps `Sound`. -/
theorem append (h : Sound sent l) : Sound (sent ++ out) l := by
  refine { h with delivered_le := ?_, started := ?_ }
  · rw [List.length_append]
    exact Nat.le_add_right_of_le h.delivered_le
  · rw [Channel.received_append h.delivered_le]
    exact h.started

/-- Emissions that are handled or lost keep `Sound`. -/
theorem fewer (h : Sound sent l) {arriving : Option Nat} {rest : List Emission}
    (hr : ∀ m ∈ rest, m ∈ l.toControl) :
    Sound sent { l with arriving := arriving, toControl := rest } where
  delivered_le := h.delivered_le
  started id ht := by
    refine h.started id ?_
    rcases ht with ht | ht | ⟨m, hm, hid⟩
    · exact Or.inl ht
    · exact Or.inr (Or.inl ht)
    · exact Or.inr (Or.inr ⟨m, hr m hm, hid⟩)
  not_replacing := h.not_replacing
  starting_mem := h.starting_mem
  stopping_not_mem := h.stopping_not_mem
  closed_not_mem id hm := h.closed_not_mem id (hr _ hm)
  stopped_all := h.stopped_all

/-- A link whose application goes on stays `Sound` if the application it goes on to is. -/
theorem put (h : Sound sent l) (hr : l.running = true) {r : BridgeApp × List Emission}
    (hstarted : ∀ id, (id ∈ r.1.sessions ∨ handling r.1.handler = some id ∨ ∃ m ∈ r.2, m.id = id) →
      ∃ m ∈ Channel.received sent l.delivered, Says "session.start" m id)
    (hreplacing : ∀ id, r.1.handler ≠ .replacing id)
    (hstarting : ∀ id, r.1.handler = .starting id → id ∈ r.1.sessions)
    (hstopping : ∀ id, r.1.handler = .stopping id → id ∉ r.1.sessions)
    (hclosed : ∀ id, Emission.closed id ∈ l.toControl ∨ Emission.closed id ∈ r.2 →
      id ∉ r.1.sessions) : Sound sent (l.put r) := by
  have hmem : ∀ m ∈ (l.put r).toControl, m ∈ l.toControl ∨ m ∈ r.2 := by
    intro m hm
    unfold Link.put at hm
    simp only at hm
    split at hm
    · exact List.mem_append.mp hm
    · exact Or.inl hm
  refine ⟨h.delivered_le, fun id ht => ?_, hreplacing, hstarting, hstopping,
    fun id hm => hclosed id (hmem _ hm), fun hno => absurd (hr.symm.trans hno) (by simp)⟩
  rcases ht with ht | ht | ⟨m, hm, hid⟩
  · exact hstarted id (Or.inl ht)
  · exact hstarted id (Or.inr (Or.inl ht))
  · rcases hmem m hm with hm | hm
    · exact h.started id (Or.inr (Or.inr ⟨m, hm, hid⟩))
    · exact hstarted id (Or.inr (Or.inr ⟨m, hm, hid⟩))

/-- A session is untouched until its `session.start` is delivered. -/
theorem untouched (h : Sound sent l) (hs : StartsFirst sent) {m : Value} {id : Uuid}
    (hm : m ∈ Channel.pending sent l.delivered) (hstart : Says "session.start" m id) :
    ¬ l.Touched id := by
  intro ht
  obtain ⟨p, hp, hpstart⟩ := h.started id ht
  exact hs.not_about_received hm hstart p hp hpstart.names

/-- Delivering a message keeps `Sound`. -/
theorem deliver (h : Sound sent l) (hs : StartsFirst sent) (hr : l.running = true) {m : Value}
    (hm : sent[l.delivered]? = some m) {r : BridgeApp × List Emission} (hidle : l.app.handler = .idle)
    (hh : BridgeApp.Handled m l.app r) :
    Sound sent (Link.put { l with delivered := l.delivered + 1 } r) := by
  have hhead : m ∈ Channel.pending sent l.delivered := by
    rw [Channel.pending_of_next hm]
    exact List.mem_cons_self
  have hold : ∀ id, l.Touched id →
      ∃ p ∈ Channel.received sent (l.delivered + 1), Says "session.start" p id := by
    intro id ht
    obtain ⟨p, hp, hps⟩ := h.started id ht
    rw [Channel.received_of_next hm]
    exact ⟨p, List.mem_append_left _ hp, hps⟩
  have hlast : ∀ id, Says "session.start" m id →
      ∃ p ∈ Channel.received sent (l.delivered + 1), Says "session.start" p id := by
    intro id hstart
    rw [Channel.received_of_next hm]
    exact ⟨m, List.mem_append_right _ List.mem_cons_self, hstart⟩
  have hnext : Sound sent { l with delivered := l.delivered + 1 } :=
    { h with delivered_le := Channel.succ_le_of_next hm, started := hold }
  cases hh with
  | @replaced id hstart hid => exact absurd (Or.inl hid) (h.untouched hs hhead hstart)
  | @began id _ hstart hid hb =>
    have hno := h.untouched hs hhead hstart
    cases hb with
    | rejected message =>
      refine hnext.put hr (fun k hk => ?_) (by simp [BridgeApp.finish]) (by simp [BridgeApp.finish])
        (by simp [BridgeApp.finish]) fun k hk => ?_
      · rcases hk with hk | hk | ⟨m', hm', rfl⟩
        · exact hold k (Or.inl hk)
        · exact absurd hk (by simp [BridgeApp.finish, handling])
        · rw [List.mem_singleton.mp hm']
          exact hlast id hstart
      · rcases hk with hk | hk
        · exact h.closed_not_mem k hk
        · exact absurd hk (by simp)
    | starting =>
      refine hnext.put hr (fun k hk => ?_) (by simp) (fun k hk => ?_) (by simp) fun k hk hmem => ?_
      · rcases hk with hk | hk | ⟨m', hm', -⟩
        · rcases List.mem_append.mp hk with hk | hk
          · exact hold k (Or.inl hk)
          · rw [List.mem_singleton.mp hk]
            exact hlast id hstart
        · obtain rfl := Option.some.inj hk
          exact hlast _ hstart
        · exact absurd hm' List.not_mem_nil
      · obtain rfl := Handler.starting.inj hk
        exact List.mem_append_right _ List.mem_cons_self
      · rcases hk with hk | hk
        · rcases List.mem_append.mp hmem with hmem | hmem
          · exact h.closed_not_mem k hk hmem
          · obtain rfl := List.mem_singleton.mp hmem
            exact hno (Or.inr (Or.inr ⟨_, hk, rfl⟩))
        · exact absurd hk List.not_mem_nil
  | @stopped id hstop hid =>
    refine hnext.put hr (fun k hk => ?_) (by simp) (by simp) (fun k hk hmem => ?_) fun k hk hmem => ?_
    · rcases hk with hk | hk | ⟨m', hm', -⟩
      · exact hold k (Or.inl (BridgeApp.mem_without.mp hk).1)
      · obtain rfl := Option.some.inj hk
        exact hold _ (Or.inl hid)
      · exact absurd hm' List.not_mem_nil
    · obtain rfl := Handler.stopping.inj hk
      exact (BridgeApp.mem_without.mp hmem).2 rfl
    · rcases hk with hk | hk
      · exact h.closed_not_mem k hk (BridgeApp.mem_without.mp hmem).1
      · exact absurd hk List.not_mem_nil
  | @passed handler _ _ hhandler =>
    have hquiet : handler = .idle ∨ handler = .serving := by rwa [← hidle]
    have hnone : handling handler = none := by rcases hquiet with rfl | rfl <;> rfl
    refine hnext.put hr (fun k hk => ?_) ?_ ?_ ?_ fun k hk => ?_
    · rcases hk with hk | hk | ⟨m', hm', -⟩
      · exact hold k (Or.inl hk)
      · exact absurd (hnone.symm.trans hk) (by simp)
      · exact absurd hm' List.not_mem_nil
    · rcases hquiet with rfl | rfl <;> simp
    · rcases hquiet with rfl | rfl <;> simp
    · rcases hquiet with rfl | rfl <;> simp
    · rcases hk with hk | hk
      · exact h.closed_not_mem k hk
      · exact absurd hk List.not_mem_nil

/-- A handler that goes on keeps `Sound`. -/
theorem resume (h : Sound sent l) (hr : l.running = true) {r : BridgeApp × List Emission}
    (hh : BridgeApp.Resumed l.app r) : Sound sent (l.put r) := by
  have hworking : ∀ {id}, handling l.app.handler = some id →
      ∃ p ∈ Channel.received sent l.delivered, Says "session.start" p id :=
    fun hid => h.started _ (Or.inr (Or.inl hid))
  -- every exit keeps the table or takes one session out of it
  have hput : ∀ {r : BridgeApp × List Emission}, (∀ id ∈ r.1.sessions, id ∈ l.app.sessions) →
      (∀ id, handling r.1.handler = some id → handling l.app.handler = some id) →
      (∀ m ∈ r.2, handling l.app.handler = some m.id) →
      (∀ id, r.1.handler ≠ .replacing id ∧ r.1.handler ≠ .starting id ∧ r.1.handler ≠ .stopping id) →
      (∀ id, Emission.closed id ∈ r.2 → id ∉ r.1.sessions) → Sound sent (l.put r) := by
    intro r hsub hsame hout hkind hclosed
    refine h.put hr (fun id hk => ?_) (fun id => (hkind id).1) (fun id hk => absurd hk (hkind id).2.1)
      (fun id hk => absurd hk (hkind id).2.2) fun id hk hmem => ?_
    · rcases hk with hk | hk | ⟨m, hm, rfl⟩
      · exact h.started id (Or.inl (hsub id hk))
      · exact hworking (hsame id hk)
      · exact hworking (hout m hm)
    · rcases hk with hk | hk
      · exact h.closed_not_mem id hk (hsub id hmem)
      · exact hclosed id hk hmem
  cases hh with
  | began hh => exact absurd hh (h.not_replacing _)
  | ready hh =>
    refine hput (fun _ hk => hk) (by simp [BridgeApp.finish, handling]) (fun m hm => ?_)
      (by simp [BridgeApp.finish]) (by simp)
    rw [List.mem_singleton.mp hm, hh]
    rfl
  | failed hh =>
    refine hput (fun _ hk => hk) (fun k hk => ?_) (fun m hm => ?_) (by simp) (by simp)
    · rw [hh]
      exact hk
    · rw [List.mem_singleton.mp hm, hh]
      rfl
  | unwound hh =>
    refine hput (fun _ hk => (BridgeApp.mem_without.mp hk).1) (fun k hk => ?_) (by simp) (by simp)
      (by simp)
    rw [hh]
    exact hk
  | @closed id hh =>
    refine hput (fun _ hk => hk) (by simp [BridgeApp.finish, handling]) (fun m hm => ?_)
      (by simp [BridgeApp.finish]) fun k hk => ?_
    · rw [List.mem_singleton.mp hm, hh]
      rfl
    · obtain rfl : k = id := by simpa using hk
      exact h.stopping_not_mem k hh
  | returned =>
    exact hput (r := (l.app.finish, [])) (fun _ hk => hk) (by simp [BridgeApp.finish, handling])
      (by simp) (by simp [BridgeApp.finish]) (by simp)

/-- **A step of a link keeps `Sound`.** -/
theorem step (h : Sound sent l) (hs : StartsFirst sent) {e : LinkEvent}
    (he : l.step sent e = some l') : Sound sent l' := by
  cases link_cases he with
  | delivered hr hidle hm hh => exact h.deliver hs hr hm hidle hh
  | resumed hr hh => exact h.resume hr hh
  | @emitted event hr hem =>
    refine h.put hr (fun id hk => ?_) h.not_replacing h.starting_mem h.stopping_not_mem fun id hk => ?_
    · refine h.started id ?_
      rcases hk with hk | hk | ⟨m, hm, rfl⟩
      · exact Or.inl hk
      · exact Or.inr (Or.inl hk)
      · rw [List.mem_singleton.mp hm]
        simp only [BridgeApp.emitting, Bool.or_eq_true, decide_eq_true_eq, beq_iff_eq] at hem
        rcases hem with (hem | hem) | hem
        · exact Or.inl hem
        · exact Or.inr (Or.inl (by rw [hem]; rfl))
        · exact Or.inr (Or.inl (by rw [hem]; rfl))
    · rcases hk with hk | hk
      · exact h.closed_not_mem id hk
      · exact absurd hk (by simp)
  | lost => exact h.fewer fun m hm => List.mem_of_mem_take hm
  | closed hu hidle =>
    refine ⟨h.delivered_le, fun id ht => h.started id ?_, h.not_replacing, fun id hk => ?_,
      fun _ _ => List.not_mem_nil, fun _ _ => List.not_mem_nil, fun _ => rfl⟩
    · rcases ht with ht | ht | ht
      · exact absurd ht List.not_mem_nil
      · exact Or.inr (Or.inl ht)
      · exact Or.inr (Or.inr ht)
    · exact absurd (hidle.symm.trans hk) (by simp)

end Sound

/-! ## The deployment -/

/-- What holds in every state of a run that draws no UUID twice. -/
structure Inv (d : Deployment) : Prop where
  ground : Ground d.control
  drawn : ∀ u l, d.links.lookup u = some l → u ∈ d.control.drawn
  sound : ∀ u l, d.links.lookup u = some l → Sound (sentOn d.control.app u) l

theorem inv_init : Inv .init where
  ground := ground_init
  drawn _ _ h := absurd h (by simp [Deployment.init])
  sound _ _ h := absurd h (by simp [Deployment.init])

section Run

variable {cfg : Config} {digest : String → String} {d t : Deployment} {x : Act}

theorem Inv.act (hi : Inv d) (hf : FreshAct ⟨d, x, t⟩) (h : Joint.act cfg digest d x = some t) :
    Inv t := by
  have hground : Ground t.control :=
    hf.control h hi.ground fun _ _ hfs hs => hi.ground.step hfs hs
  -- a link the act leaves alone, or takes emissions from
  have hkeep : ∀ {s : System} {e : Event}, step cfg digest d.control e = some s → ∀ u l l',
      d.links.lookup u = some l → Sound (sentOn d.control.app u) l' →
      u ∈ s.drawn ∧ Sound (sentOn s.app u) l' := by
    intro s e hs u l l' hl hsound
    obtain ⟨out, hout, -⟩ := step_sent hs
    refine ⟨drawn_mono hs (hi.drawn u l hl), ?_⟩
    rw [sentOn_append hout u]
    exact hsound.append
  cases act_cases h with
  | control _ hs =>
    exact ⟨hground, fun u l hl => (hkeep hs u l l hl (hi.sound u l hl)).1,
      fun u l hl => (hkeep hs u l l hl (hi.sound u l hl)).2⟩
  | @connect req socketId maxSessions s _ hs =>
    have hall : ∀ u l, (d.links.insert socketId (.new maxSessions)).lookup u = some l →
        u ∈ s.drawn ∧ Sound (sentOn s.app u) l := by
      intro u l hl
      rcases Table.lookup_insert_cases hl with ⟨rfl, rfl⟩ | ⟨-, hl⟩
      · refine ⟨?_, sound_new _ _⟩
        rw [step_drawn hs]
        exact List.mem_append_left _ List.mem_cons_self
      · exact hkeep hs u l l hl (hi.sound u l hl)
    exact ⟨hground, fun u l hl => (hall u l hl).1, fun u l hl => (hall u l hl).2⟩
  | @link socketId e l l' hl hs =>
    have hall : ∀ u k, (d.links.insert socketId l').lookup u = some k →
        u ∈ d.control.drawn ∧ Sound (sentOn d.control.app u) k := by
      intro u k hk
      rcases Table.lookup_insert_cases hk with ⟨rfl, rfl⟩ | ⟨-, hk⟩
      · exact ⟨hi.drawn u l hl, (hi.sound u l hl).step (hi.ground.startsFirst_on u) hs⟩
      · exact ⟨hi.drawn u k hk, hi.sound u k hk⟩
    exact ⟨hground, fun u k hk => (hall u k hk).1, fun u k hk => (hall u k hk).2⟩
  | @relay socketId times l m rest s hl hm hs =>
    have hall : ∀ u k, (d.links.insert socketId { l with toControl := rest }).lookup u = some k →
        u ∈ s.drawn ∧ Sound (sentOn s.app u) k := by
      intro u k hk
      rcases Table.lookup_insert_cases hk with ⟨rfl, rfl⟩ | ⟨-, hk⟩
      · refine hkeep hs u l _ hl ((hi.sound u l hl).fewer fun m' hm' => ?_)
        rw [hm]
        exact List.mem_cons_of_mem _ hm'
      · exact hkeep hs u k k hk (hi.sound u k hk)
    exact ⟨hground, fun u k hk => (hall u k hk).1, fun u k hk => (hall u k hk).2⟩
  | disconnect _ _ hs =>
    exact ⟨hground, fun u l hl => (hkeep hs u l l hl (hi.sound u l hl)).1,
      fun u l hl => (hkeep hs u l l hl (hi.sound u l hl)).2⟩

/-- **The invariant of a run** that draws no UUID twice, in every state. -/
theorem inv_of_mem {xs : List Act} (hf : FreshRun cfg digest xs) (hd : d ∈ states cfg digest xs) :
    Inv d :=
  Run.forall_states inv_init (fun y hy hi => hi.act (hf y hy) (Run.mem_trace hy).2) d hd

/-- The same before every act. -/
theorem inv_before {xs : List Act} (hf : FreshRun cfg digest xs) :
    ∀ y ∈ trace cfg digest xs, Inv y.before :=
  Run.before_of_trace inv_init fun y hy hi => hi.act (hf y hy) (Run.mem_trace hy).2

end Run

/-- **A session is started on one link only.** -/
theorem Inv.one_link {d : Deployment} (hi : Inv d) {u v : Uuid} {m n : Value} {id : Uuid}
    (hm : m ∈ sentOn d.control.app u) (hn : n ∈ sentOn d.control.app v)
    (hms : Says "session.start" m id) (hns : Says "session.start" n id) : u = v := by
  have heq := hi.ground.startsFirst.unique (fun _ _ h => h.names) (mem_onLink.mp hm)
    (mem_onLink.mp hn) hms hns
  exact congrArg Prod.fst heq

end SenseVoice.Joint
