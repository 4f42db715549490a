import SenseVoice.ControlPlane.Credentials

/-!
# RTC credentials against the life of a session

Runs of the control plane on a clock, in milliseconds. A critical section ends at an instant (`Timed`), and
what it reads from the clock lies before that:

* `create_session` reads while it holds the lock, so not before the section in front of it ended: first the
  `now` of the session's end, then the readings of the two token builders, which keep whole seconds only;
* the reaper reads when its tick comes and may then wait for the lock, but its reading is not older than its
  own last pass.

`Clocked` says that instants do not go back and that none lies more than 15 seconds after the latest pass (the
first tick of the interval comes at once).

Results:
* `not_expired_of_open`: a session a pass leaves open ends after the pass's reading;
* `pass_bound`: an open session's end is less than 30 seconds ago;
* **`credentials_outlive_session`**: as long as a session has not been closed, both its credentials are valid.
-/

namespace SenseVoice.ControlPlane

open Lib Text

/-- A critical section, the instant it ends at, and what the token builders read in it. -/
structure Timed where
  instant : ℕ
  event : Event
  readings : Readings

/-- The longest time between two passes. -/
def passPeriod : ℕ := 15000

/-- What the section reads from the clock, after the section that ended at `last` and the pass of `pass`. -/
def Timed.Reads (crates : Crates) (last pass : ℕ) (x : Timed) : Prop :=
  match x.event with
  | .reaper now => pass ≤ now ∧ now ≤ x.instant
  | .createSession i =>
    (∃ i₀, i = CreateInput.issue crates x.readings i₀) ∧ last ≤ i.now ∧
      i.now ≤ x.readings.client.clockMs ∧ x.readings.client.clockMs ≤ x.instant ∧
      i.now ≤ x.readings.bridge.clockMs ∧ x.readings.bridge.clockMs ≤ x.instant
  | _ => True

/-- The instant of the latest pass after the section. -/
def Timed.lastPass (pass : ℕ) (x : Timed) : ℕ :=
  match x.event with
  | .reaper _ => x.instant
  | _ => pass

/-- The sections from `last` to the instant `now`, on one clock and with a pass at least every 15 seconds. -/
def Clocked (crates : Crates) : (last pass : ℕ) → List Timed → (now : ℕ) → Prop
  | last, pass, [], now => last ≤ now ∧ now ≤ pass + passPeriod
  | last, pass, x :: xs, now => last ≤ x.instant ∧ x.instant ≤ pass + passPeriod ∧ x.Reads crates last pass ∧
      Clocked crates x.instant (x.lastPass pass) xs now

section Run

variable {crates : Crates} {cfg : Config} {digest : String → String} {s t : System}

/-- Where a clocked list of sections goes on: the latest pass is no later than the last section. -/
theorem Clocked.split {as bs : List Timed} {last pass now : ℕ} (hpass : pass ≤ last)
    (h : Clocked crates last pass (as ++ bs) now) :
    ∃ last' pass', pass' ≤ last' ∧ Clocked crates last' pass' bs now := by
  induction as generalizing last pass with
  | nil => exact ⟨last, pass, hpass, h⟩
  | cons x as ih =>
    obtain ⟨hlast, -, -, hrest⟩ := h
    refine ih ?_ hrest
    unfold Timed.lastPass
    split <;> omega

theorem Clocked.last_le {xs : List Timed} {last pass now : ℕ} (h : Clocked crates last pass xs now) :
    last ≤ now := by
  induction xs generalizing last pass with
  | nil => exact h.1
  | cons x xs ih => exact Nat.le_trans h.1 (ih h.2.2.2)

/-- A session that a pass leaves open ends after the pass's reading. -/
theorem not_expired_of_open {now : ℕ} (h : step cfg digest s (.reaper now) = some t) {id : Uuid}
    {r : Session} (hr : t.app.inner.sessions.lookup id = some r) (hopen : r.isOpen = true) :
    now < r.expiresAtMs := by
  rw [step_app h, Event.apply, (reaperPass_frame now s.app).1 id] at hr
  cases hb : s.app.inner.sessions.lookup id with
  | none => simp [hb] at hr
  | some r₀ =>
    rw [hb, Option.map_some] at hr
    obtain ⟨heq, -⟩ := Option.filter_eq_some_iff.mp hr
    by_cases hx : r₀.expired now = true
    · rw [if_pos hx] at heq
      obtain rfl := Option.some.inj heq
      exact absurd hopen (by simp)
    · rw [if_neg hx] at heq
      obtain rfl := Option.some.inj heq
      simpa [Session.expired, hopen] using hx

/-- A step keeps the end of a session that stays open, unless it creates it. -/
theorem expiresAtMs_kept {e : Event} (h : step cfg digest s e = some t) {id : Uuid} {r : Session}
    (hr : s.app.inner.sessions.lookup id = some r) (hopen : t.app.sessionOpen id = true)
    (hnew : ∀ i, e = .createSession i → i.id ≠ id) :
    ∃ r', t.app.inner.sessions.lookup id = some r' ∧ r'.isOpen = true ∧ r'.expiresAtMs = r.expiresAtMs := by
  obtain ⟨r', hr', hopen'⟩ := sessionOpen_iff.mp hopen
  have hs := step_session h id
  rw [hr, hr'] at hs
  refine ⟨r', hr', hopen', ?_⟩
  cases hs with
  | same => rfl
  | marked => rfl
  | closed => exact absurd hopen' (by simp)
  | created he hid => exact absurd hid (hnew _ he)

/-- **An open session ended less than two periods ago**, if at all: a pass that comes later finds it expired
by its reading, which is not older than the pass before. -/
theorem pass_bound {bs : List Timed} {last pass now : ℕ} (hclock : Clocked crates last pass bs now)
    (hfresh : ∀ y ∈ Run.trace (step cfg digest) s (bs.map Timed.event), FreshStep y) {id : Uuid}
    (hdrawn : id ∈ s.drawn) {r : Session} (hr : s.app.inner.sessions.lookup id = some r)
    (hopen : ∀ t ∈ Run.states (step cfg digest) s (bs.map Timed.event), t.app.sessionOpen id = true)
    (hpass : pass < r.expiresAtMs + passPeriod) : now < r.expiresAtMs + 2 * passPeriod := by
  induction bs generalizing last pass s r with
  | nil =>
    have := hclock.2
    omega
  | cons x bs ih =>
    obtain ⟨-, hat, hreads, hrest⟩ := hclock
    rw [List.map_cons] at hfresh hopen
    cases hstep : step cfg digest s x.event with
    | none =>
      rw [Run.trace_skip hstep] at hfresh
      rw [Run.states_skip hstep] at hopen
      refine ih hrest hfresh hdrawn hr hopen ?_
      unfold Timed.lastPass
      split
      · rename_i now' he
        rw [he] at hstep
        exact absurd hstep (by simp [step, Event.enabled])
      · exact hpass
    | some t =>
      rw [Run.trace_take hstep] at hfresh
      rw [Run.states_take hstep] at hopen
      have hnew : ∀ i, x.event = .createSession i → i.id ≠ id := by
        rintro i he rfl
        refine (hfresh _ List.mem_cons_self).2 i.id ?_ hdrawn
        rw [he]
        exact List.mem_cons_self
      have hopen' : ∀ u ∈ Run.states (step cfg digest) t (bs.map Timed.event),
          u.app.sessionOpen id = true := fun u hu => hopen u (List.mem_cons_of_mem _ hu)
      obtain ⟨r', hr', hro, hexp⟩ := expiresAtMs_kept hstep hr (hopen' t List.mem_cons_self) hnew
      rw [← hexp]
      refine ih hrest (fun y hy => hfresh y (List.mem_cons_of_mem _ hy)) (drawn_mono hstep hdrawn) hr'
        hopen' ?_
      rw [hexp]
      unfold Timed.lastPass
      split
      · rename_i now' he
        rw [he] at hstep
        have hend := not_expired_of_open hstep hr' hro
        simp only [Timed.Reads, he] at hreads
        omega
      · exact hpass

/-- The steps of a fresh run after one of them are fresh. -/
theorem FreshRun.rest {as bs : List Event} {e : Event} (hf : FreshRun cfg digest (as ++ e :: bs))
    (h : step cfg digest (final cfg digest as) e = some t) :
    ∀ y ∈ Run.trace (step cfg digest) t bs, FreshStep y := by
  intro y hy
  refine hf y ?_
  unfold ControlPlane.trace
  rw [Run.trace_split as e bs h]
  exact List.mem_append_right _ (List.mem_cons_of_mem _ hy)

/-- A fresh run creates a session under an id that no record has. -/
theorem FreshRun.no_session {as bs : List Event} {i : CreateInput}
    (hf : FreshRun cfg digest (as ++ .createSession i :: bs))
    (h : step cfg digest (final cfg digest as) (.createSession i) = some t) :
    (final cfg digest as).app.inner.sessions.lookup i.id = none := by
  have hnew := (hf _ (Run.mem_trace_of_step as _ bs h)).2 i.id List.mem_cons_self
  cases hb : (final cfg digest as).app.inner.sessions.lookup i.id with
  | none => rfl
  | some r => exact absurd (records_drawn (Run.final_mem_states _ _) _ _ hb) hnew

end Run

/-- The end of a new session does not wrap around. -/
theorem newSession_expiresAtMs {cfg : Config} {i : CreateInput} (owner : Option BrowserGrant)
    (h : i.now + cfg.sessionTtlSeconds * 1000 < 2 ^ 64) :
    (newSession cfg i owner).expiresAtMs = i.now + cfg.sessionTtlSeconds * 1000 :=
  Nat.mod_eq_of_lt h

/-- A creation after which its fresh id is open issued the credentials and filed the new session. -/
theorem created_of_open {cfg : Config} {digest : String → String} {s t : System} {i : CreateInput}
    (h : step cfg digest s (.createSession i) = some t)
    (hnone : s.app.inner.sessions.lookup i.id = none) (hopen : t.app.sessionOpen i.id = true) :
    ∃ creds owner, credentials cfg i = .ok creds ∧
      t.app.inner.sessions.lookup i.id = some (newSession cfg i owner) := by
  obtain ⟨r, hr, -⟩ := sessionOpen_iff.mp hopen
  have happ := step_app h
  rw [Event.apply] at happ
  rcases createSession_states digest cfg i s.app with
    ⟨g, h1⟩ | ⟨-, g, h1⟩ | ⟨-, link, owner, g, creds, -, hcreds, h1⟩
  · rw [happ, h1] at hr
    exact absurd (hnone.symm.trans hr) (by simp)
  · rw [happ, h1] at hr
    exact absurd (hnone.symm.trans hr) (by simp)
  · refine ⟨creds, owner, hcreds, ?_⟩
    rw [happ, h1]
    simp only [createdState, Table.lookup_insert_eq]
    rw [if_pos trivial]

/-- **RTC credentials outlive the session.** At every instant of a clocked run from the creation of a session
until it is first closed, the grants of both its credentials have not ended. -/
theorem credentials_outlive_session (crates : Crates) {cfg : Config} (h : cfg.validate = .ok ())
    (hdemo : cfg.demoMode = false) (huids : cfg.clientUid < 2 ^ 32 ∧ cfg.bridgeUid < 2 ^ 32)
    {digest : String → String} {start now instant : ℕ} {as bs : List Timed} {i : CreateInput} {rs : Readings}
    (hclock : Clocked crates start start
      (as ++ ⟨instant, .createSession (i.issue crates rs), rs⟩ :: bs) now)
    (hfits : now + 86400000 < 2 ^ 64)
    (hfresh : FreshRun cfg digest
      ((as ++ ⟨instant, .createSession (i.issue crates rs), rs⟩ :: bs).map Timed.event))
    (hchannel : byteLen i.channel = 32)
    (hopen : ∀ t ∈ Run.states (step cfg digest)
      (final cfg digest (as.map Timed.event ++ [.createSession (i.issue crates rs)]))
      (bs.map Timed.event), t.app.sessionOpen i.id = true) :
    ∃ creds owner bridge client, credentials cfg (i.issue crates rs) = .ok creds ∧
      grantOf crates (startEvent (newSession cfg i owner) creds.1) = some bridge ∧
      grantOf crates (createdReply cfg (newSession cfg i owner) creds.2).body = some client ∧
      now < bridge.expires * 1000 ∧ now < client.expires * 1000 := by
  have hv := validate_ok h hdemo
  have hsession := hv.sessionTtl
  have httl := hv.tokenTtl
  obtain ⟨last, pass, hpass, hlast, -, hreads, hrest⟩ := hclock.split (Nat.le_refl start)
  have hnow : instant ≤ now := hrest.last_le
  simp only [Timed.Reads] at hreads
  obtain ⟨-, hread, hclient, hclient', hbridge, hbridge'⟩ := hreads
  change last ≤ i.now at hread
  change (i.now : ℤ) ≤ _ at hclient hbridge
  -- The creation is a step of the run, and its id is new.
  set s := final cfg digest (as.map Timed.event) with hs
  obtain ⟨t, hstep⟩ : ∃ t, step cfg digest s (.createSession (i.issue crates rs)) = some t := ⟨_, rfl⟩
  have ht : final cfg digest (as.map Timed.event ++ [.createSession (i.issue crates rs)]) = t :=
    Run.final_concat hstep
  rw [ht] at hopen
  rw [List.map_append, List.map_cons] at hfresh
  obtain ⟨creds, owner, hcreds, hr⟩ :=
    created_of_open hstep (hfresh.no_session hstep) (hopen t List.mem_cons_self)
  -- Its end, and how far the run may have gone beyond it.
  have hend : (newSession cfg (i.issue crates rs) owner).expiresAtMs = i.now + cfg.sessionTtlSeconds * 1000 :=
    newSession_expiresAtMs owner (by
      change i.now + _ < _
      omega)
  have hdrawn : i.id ∈ t.drawn := by
    rw [step_drawn hstep]
    exact List.mem_append_left _ List.mem_cons_self
  have hbound := pass_bound hrest (hfresh.rest hstep) hdrawn hr hopen (by
    rw [hend]
    change pass < _
    unfold passPeriod
    omega)
  rw [hend, passPeriod] at hbound
  have hfit : rs.client.Fits ∧ rs.bridge.Fits := by
    unfold Reading.Fits
    omega
  obtain ⟨hstart, hreply⟩ := grants_issue hv hdemo huids hchannel hfit.1 hfit.2 hcreds
    (newSession cfg i owner) (newSession cfg i owner)
  refine ⟨creds, owner, _, _, hcreds, hstart, hreply, ?_, ?_⟩
  · change now < (rs.bridge.seconds + cfg.rtcTokenTtlSeconds) * 1000
    unfold Reading.seconds
    omega
  · change now < (rs.client.seconds + cfg.rtcTokenTtlSeconds) * 1000
    unfold Reading.seconds
    omega

/-- An operator is admitted while the bridge is there and a slot is free. -/
theorem createSession_operator {cfg : Config} {i : CreateInput} {a : AppState} {link : SocketLink}
    {creds : Value × Value} (digest : String → String) (hauth : clientAuthorized i.req cfg = true)
    (hlive : a.liveBridge = some link) (hcap : a.activeSessions < cfg.sessionCapacity)
    (hcreds : credentials cfg i = .ok creds) :
    (createSession digest cfg i a).1 = createdState cfg i none creds.1 link a.inner.browserGrants a := by
  have hbridge : a.inner.bridge.isNone = false := by
    rw [(AppState.liveBridge_eq_some.mp hlive).1]
    rfl
  have hfree : ¬ a.activeSessions ≥ cfg.sessionCapacity := Nat.not_le.mpr hcap
  simp only [createSession, hauth, Bool.not_true, Bool.false_and, Bool.false_eq_true, if_false, hbridge,
    hfree, takeOwner, if_true, startSession, hcreds, AppState.toBridge_eq, hlive]
  rfl

/-- An operator's request, a millisecond before the second of its client's token is over. -/
def lateInTheSecond : CreateInput :=
  { operatorCreate with req := operatorRequest "first", now := 1763600000999 }

/-- The first pass and the bridge. -/
def beforeSession : List Timed :=
  [⟨1763600000000, .reaper 1763600000000, readingsNow⟩, ⟨1763600000000, .connect "link", readingsNow⟩]

/-- The session is open 13 seconds later. -/
theorem credentials_outlive_session_operator :
    agoraProductionConfig.validate = .ok () ∧ ∀ crates : Crates, ∃ creds owner bridge client,
      credentials agoraProductionConfig (lateInTheSecond.issue crates readingsNow) = .ok creds ∧
      grantOf crates (startEvent (newSession agoraProductionConfig lateInTheSecond owner) creds.1) =
        some bridge ∧
      grantOf crates (createdReply agoraProductionConfig
        (newSession agoraProductionConfig lateInTheSecond owner) creds.2).body = some client ∧
      1763600014000 < bridge.expires * 1000 ∧ 1763600014000 < client.expires * 1000 := by
  refine ⟨agoraProductionConfig_valid, fun crates => ?_⟩
  obtain ⟨creds, hcreds⟩ := credentials_issue crates (i := lateInTheSecond)
    (validate_ok agoraProductionConfig_valid rfl) rfl (by decide) operatorCreate_channel
    readingsNow_inRange.1 readingsNow_inRange.2
  -- The creation by itself, on the clock.
  have hcreation : Clocked crates 1763600000000 1763600000000
      [⟨1763600001003, .createSession (lateInTheSecond.issue crates readingsNow), readingsNow⟩]
      1763600014000 :=
    ⟨(by decide : (1763600000000 : ℕ) ≤ 1763600001003),
      (by decide : (1763600001003 : ℕ) ≤ 1763600000000 + 15000),
      ⟨⟨lateInTheSecond, rfl⟩, (by decide : (1763600000000 : ℕ) ≤ 1763600000999),
        (by decide : (1763600000999 : ℤ) ≤ 1763600000999), (by decide : (1763600000999 : ℤ) ≤ 1763600001003),
        (by decide : (1763600000999 : ℤ) ≤ 1763600001003), (by decide : (1763600001003 : ℤ) ≤ 1763600001003)⟩,
      (by decide : (1763600001003 : ℕ) ≤ 1763600014000),
      (by decide : (1763600014000 : ℕ) ≤ 1763600000000 + 15000)⟩
  have hclock : Clocked crates 1763600000000 1763600000000 (beforeSession ++
      ⟨1763600001003, .createSession (lateInTheSecond.issue crates readingsNow), readingsNow⟩ :: [])
        1763600014000 :=
    ⟨by decide, by decide, ⟨by decide, by decide⟩, by decide, by decide, trivial, hcreation⟩
  have hauth : clientAuthorized lateInTheSecond.req agoraProductionConfig = true := by decide +kernel
  have hlive : (final agoraProductionConfig id (beforeSession.map Timed.event)).app.liveBridge =
      some ⟨"link"⟩ := by
    decide +kernel
  have hcreated := createSession_operator id (i := lateInTheSecond.issue crates readingsNow) hauth hlive
    (by decide +kernel) hcreds
  have hopen : ∀ t ∈ Run.states (step agoraProductionConfig id)
      (final agoraProductionConfig id (beforeSession.map Timed.event ++
        [.createSession (lateInTheSecond.issue crates readingsNow)])) [],
      t.app.sessionOpen lateInTheSecond.id = true := by
    intro t ht
    obtain rfl := List.mem_singleton.mp ht
    rw [final, Run.final_concat (t := _) rfl]
    refine sessionOpen_iff.mpr ⟨newSession agoraProductionConfig (lateInTheSecond.issue crates readingsNow)
      none, ?_, newSession_isOpen _ _ _⟩
    change (createSession id agoraProductionConfig (lateInTheSecond.issue crates readingsNow)
      (final agoraProductionConfig id (beforeSession.map Timed.event)).app).1.inner.sessions.lookup
        lateInTheSecond.id = _
    rw [hcreated, createdState, Table.lookup_insert_eq]
    exact if_pos rfl
  have hfresh : FreshRun agoraProductionConfig id (List.map Timed.event (beforeSession ++
      ⟨1763600001003, .createSession (lateInTheSecond.issue crates readingsNow), readingsNow⟩ :: [])) :=
    of_decide_eq_true (by rfl)
  exact credentials_outlive_session crates agoraProductionConfig_valid rfl (by decide) hclock (by decide)
    hfresh operatorCreate_channel hopen

end SenseVoice.ControlPlane
