import SenseVoice.ControlPlane.CommandLanguage
import SenseVoice.ControlPlane.Relay

/-!
# One pass of `session_reaper`

A pass closes what is overdue, tells the bridge and the clients, and drops the records and the grants that are of
no use any more. It compares with the clock in three places: `expires_at_ms <= now` for a session,
`expires_at_ms.saturating_add(60_000) > now` for a record, `expires_at_ms > now` for a grant.

* `PassExact` is what a pass comes to, field by field; the messages are lists, with every session once.

Results:
* `clientOut_expireAll`: what the loop of a pass sends to the clients, by induction on the expired ids;
* `reaperPass_again`: a second pass at the same time changes nothing;
* **`reaper_pass_exact`**: every pass in every reachable state;
* **`grant_kept_iff`**: whether a pass can be told from the redemption of a grant after it. `consume_browser_grant`
  still accepts a grant in the millisecond it expires in, and the pass has dropped it then.
-/

namespace SenseVoice.ControlPlane

open Lib

variable {a : AppState} {now : Nat}

/-! ## What a pass sends -/

/-- What a message to the client of a session adds to the record of the links. -/
def AppState.clientSends (a : AppState) (id : Uuid) (m : Value) : List (Uuid × Value) :=
  (((a.inner.clients.lookup id).filter fun link => link.id ∉ a.dropped).map fun link => (link.id, m)).toList

theorem clientOut_expireSession (a : AppState) (id : Uuid) :
    (expireSession a id).clientOut = a.clientOut ++ a.clientSends id (sessionMessage "session.expired" id) := by
  unfold expireSession AppState.dismissClient AppState.clientSends
  rw [AppState.toBridge_inner]
  cases a.inner.clients.lookup id with
  | none => simp [AppState.toBridge_clientOut]
  | some link =>
    dsimp only [List.foldl_cons, List.foldl_nil]
    rw [AppState.sendClient_clientOut]
    by_cases h : link.id ∈ a.dropped <;> simp [h, Option.filter, AppState.toBridge_clientOut]

/-- Another session's client is not touched. -/
theorem clientSends_expireSession {id k : Uuid} (h : k ≠ id) (m : Value) :
    (expireSession a id).clientSends k m = a.clientSends k m := by
  have hclients : (expireSession a id).inner.clients.lookup k = a.inner.clients.lookup k := by
    rw [expireSession, AppState.dismissClient_clients, if_neg h, AppState.toBridge_inner]
  have hdropped : (expireSession a id).dropped = a.dropped := by simp [expireSession]
  unfold AppState.clientSends
  rw [hclients, hdropped]

/-- The loop of a pass, to the clients. -/
theorem clientOut_expireAll {ids : List Uuid} (hids : ids.Nodup) (a : AppState) :
    (ids.foldl expireSession a).clientOut =
      a.clientOut ++ ids.flatMap fun id => a.clientSends id (sessionMessage "session.expired" id) := by
  induction ids generalizing a with
  | nil => simp
  | cons id ids ih =>
    obtain ⟨hid, hids⟩ := List.nodup_cons.mp hids
    have hrest : ids.flatMap (fun k => (expireSession a id).clientSends k (sessionMessage "session.expired" k)) =
        ids.flatMap fun k => a.clientSends k (sessionMessage "session.expired" k) := by
      refine List.flatMap_congr fun k hk => clientSends_expireSession ?_ _
      rintro rfl
      exact hid hk
    rw [List.foldl_cons, ih hids, clientOut_expireSession, hrest, List.flatMap_cons, List.append_assoc]

theorem clientOut_reaperPass (hk : KeyedById a) (now : Nat) :
    (reaperPass now a).clientOut = a.clientOut ++
      (expiredIds now a).flatMap fun id => a.clientSends id (sessionMessage "session.expired" id) :=
  clientOut_expireAll (nodup_expiredIds hk now) (closeWhere (Session.expired now) a).1

/-! ## What a pass leaves -/

/-- The times of the records are `u64` values. -/
def TimesBounded (a : AppState) : Prop :=
  ∀ id r, a.inner.sessions.lookup id = some r → r.expiresAtMs ≤ u64Max

theorem expired_iff {r : Session} : r.expired now = true ↔ r.isOpen = true ∧ r.expiresAtMs ≤ now := by
  simp [Session.expired]

/-- What a pass leaves under an id. -/
theorem session_after {id : Uuid} {r' : Session}
    (h : (reaperPass now a).inner.sessions.lookup id = some r') :
    ∃ r, a.inner.sessions.lookup id = some r ∧ r' = (if r.expired now then r.close else r) ∧
      (r'.isOpen = true ∨ now < saturatingAdd r'.expiresAtMs 60000) := by
  rw [(reaperPass_frame now a).1 id] at h
  obtain ⟨hmap, hkept⟩ := Option.filter_eq_some_iff.mp h
  obtain ⟨r, hr, rfl⟩ := Option.map_eq_some_iff.mp hmap
  refine ⟨r, hr, rfl, ?_⟩
  simpa using hkept

theorem not_expired_after {id : Uuid} {r : Session} (h : (reaperPass now a).inner.sessions.lookup id = some r) :
    r.expired now = false := by
  obtain ⟨r, -, rfl, -⟩ := session_after h
  split
  · rfl
  · rename_i hx
    exact Bool.not_eq_true _ ▸ hx

/-- A record that is not overdue, and still of use, stays. -/
theorem session_kept {id : Uuid} {r : Session} (hr : a.inner.sessions.lookup id = some r)
    (hx : r.expired now = false) (huse : r.isOpen = true ∨ now < saturatingAdd r.expiresAtMs 60000) :
    (reaperPass now a).inner.sessions.lookup id = some r := by
  rw [(reaperPass_frame now a).1 id, hr, Option.map_some, hx]
  refine Option.filter_eq_some_iff.mpr ⟨rfl, ?_⟩
  simpa using huse

/-- **A second pass at the same time changes nothing.** -/
theorem reaperPass_again (now : Nat) (a : AppState) : reaperPass now (reaperPass now a) = reaperPass now a := by
  generalize hb : reaperPass now a = b
  have hsessions : ∀ id r, b.inner.sessions.lookup id = some r →
      r.expired now = false ∧ (r.isOpen = true ∨ now < saturatingAdd r.expiresAtMs 60000) := by
    intro id r hr
    rw [← hb] at hr
    obtain ⟨-, -, -, huse⟩ := session_after hr
    exact ⟨not_expired_after hr, huse⟩
  have hgrants : ∀ d g, b.inner.browserGrants.lookup d = some g → now < g.expiresAtMs := by
    intro d g hg
    rw [← hb, (reaperPass_frame now a).2.2.2.1 d] at hg
    simpa using (Option.filter_eq_some_iff.mp hg).2
  have hclose : closeWhere (Session.expired now) b = (b, []) := by
    have hmap : (b.inner.sessions.mapVal fun _ r => if r.expired now then r.close else r) = b.inner.sessions := by
      refine Table.mapVal_eq_self fun id r hr => ?_
      rw [(hsessions id r hr).1]
      rfl
    have hnone : (b.inner.sessions.entries.filter fun e => Session.expired now e.2) = [] := by
      refine List.filter_eq_nil_iff.mpr fun e he => ?_
      rw [(hsessions e.1 e.2 (Table.lookup_eq_some.mpr he)).1]
      decide
    unfold closeWhere
    rw [hmap, hnone]
    rfl
  have hcollect : collectGarbage now b = b := by
    have hrecords : (b.inner.sessions.retain fun _ r =>
        r.isOpen || decide (saturatingAdd r.expiresAtMs 60000 > now)) = b.inner.sessions :=
      Table.retain_eq_self fun id r hr => by simpa using (hsessions id r hr).2
    have hkept : (b.inner.browserGrants.retain fun _ g => decide (g.expiresAtMs > now)) = b.inner.browserGrants :=
      Table.retain_eq_self fun d g hg => by simpa using hgrants d g hg
    unfold collectGarbage
    rw [hrecords, hkept]
  change collectGarbage now ((closeWhere (Session.expired now) b).2.foldl expireSession
    (closeWhere (Session.expired now) b).1) = b
  rw [hclose]
  exact hcollect

/-! ## The pass as a whole -/

/-- What a pass at `now` makes of the state `a`. -/
structure PassExact (now : Nat) (a b : AppState) : Prop where
  noneOverdue : ∀ id r, b.inner.sessions.lookup id = some r → r.isOpen = true → now < r.expiresAtMs
  noLeftover : ∀ id r, b.inner.sessions.lookup id = some r → now < r.expiresAtMs + 60000
  onlyOld : ∀ id r', b.inner.sessions.lookup id = some r' →
    ∃ r, a.inner.sessions.lookup id = some r ∧ r' = if r.expired now then r.close else r
  untouched : ∀ id r, a.inner.sessions.lookup id = some r → now < r.expiresAtMs →
    b.inner.sessions.lookup id = some r ∧ b.inner.clients.lookup id = a.inner.clients.lookup id
  recent : ∀ id r, a.inner.sessions.lookup id = some r → r.isOpen = false →
    now < saturatingAdd r.expiresAtMs 60000 → b.inner.sessions.lookup id = some r
  once : (expiredIds now a).Nodup
  expired : ∀ id, id ∈ expiredIds now a ↔ ∃ r, a.inner.sessions.lookup id = some r ∧ r.expired now = true
  stops : b.bridgeOut = a.bridgeOut ++
    (expiredIds now a).flatMap fun id => a.bridgeSends (sessionMessage "session.stop" id)
  notices : b.clientOut = a.clientOut ++
    (expiredIds now a).flatMap fun id => a.clientSends id (sessionMessage "session.expired" id)
  clients : ∀ id, b.inner.clients.lookup id = if id ∈ expiredIds now a then none else a.inner.clients.lookup id
  grants : ∀ d, b.inner.browserGrants.lookup d =
    (a.inner.browserGrants.lookup d).filter fun g => decide (now < g.expiresAtMs)
  links : b.inner.bridge = a.inner.bridge ∧ b.dropped = a.dropped
  again : reaperPass now b = b

theorem passExact (hk : KeyedById a) (ht : TimesBounded a) (now : Nat) : PassExact now a (reaperPass now a) := by
  have hexpired : ∀ id, id ∈ expiredIds now a ↔
      ∃ r, a.inner.sessions.lookup id = some r ∧ r.expired now = true := fun id => mem_closeWhere_ids hk
  obtain ⟨-, hclients, hbridge, hgrants, hdropped, hstops⟩ := reaperPass_frame now a
  refine ⟨fun id r hr ho => ?_, fun id r hr => ?_, fun id r' hr' => ?_, fun id r hr hnow => ?_,
    fun id r hr ho hnow => ?_, nodup_expiredIds hk now, hexpired, hstops, clientOut_reaperPass hk now, hclients,
    hgrants, ⟨hbridge, hdropped⟩, reaperPass_again now a⟩
  · refine Nat.lt_of_not_le fun hle => ?_
    have hx := not_expired_after hr
    rw [expired_iff.mpr ⟨ho, hle⟩] at hx
    exact absurd hx (by simp)
  · obtain ⟨-, -, -, huse⟩ := session_after hr
    rcases huse with ho | hlt
    · refine Nat.lt_of_not_le fun hle => ?_
      have hx := not_expired_after hr
      rw [expired_iff.mpr ⟨ho, Nat.le_trans (Nat.le_add_right _ _) hle⟩] at hx
      exact absurd hx (by simp)
    · unfold saturatingAdd at hlt
      omega
  · obtain ⟨r, hr, heq, -⟩ := session_after hr'
    exact ⟨r, hr, heq⟩
  · have hx : r.expired now = false := by
      rw [Bool.eq_false_iff]
      intro hx
      have hle := (expired_iff.mp hx).2
      omega
    have hbound := ht id r hr
    refine ⟨session_kept hr hx (Or.inr ?_), ?_⟩
    · unfold saturatingAdd
      omega
    · rw [hclients id, if_neg fun hmem => ?_]
      obtain ⟨r', hr', hx'⟩ := (hexpired id).mp hmem
      rw [hr] at hr'
      obtain rfl := Option.some.inj hr'
      rw [hx] at hx'
      exact absurd hx' (by simp)
  · refine session_kept hr ?_ (Or.inr hnow)
    unfold Session.expired
    rw [ho, Bool.false_and]

/-! ## Reachable states -/

section Reachable

variable {cfg : Config} {digest : String → String} {s t : System} {e : Event}

/-- The times of the records stay `u64` values. -/
theorem timesBounded_step (h : step cfg digest s e = some t) (ht : TimesBounded s.app) : TimesBounded t.app := by
  intro id r hr
  have hs := step_session h id
  rw [hr] at hs
  generalize hb : s.app.inner.sessions.lookup id = o at hs
  cases hs with
  | same => exact ht id r hb
  | @marked r₀ => exact (ht id r₀ hb : r₀.expiresAtMs ≤ u64Max)
  | @closed r₀ => exact (ht id r₀ hb : r₀.expiresAtMs ≤ u64Max)
  | created he hid =>
    refine Nat.le_of_lt_succ ?_
    exact Nat.mod_lt _ (by decide)

theorem invariants_final (cfg : Config) (digest : String → String) (es : List Event) :
    KeyedById (final cfg digest es).app ∧ TimesBounded (final cfg digest es).app := by
  refine Run.final_of_step (P := fun s : System => KeyedById s.app ∧ TimesBounded s.app) ?_ ?_ es
  · exact fun s e t hs h => ⟨keyedById_step h hs.1, timesBounded_step h hs.2⟩
  · exact ⟨keyedById_init, fun _ _ h => absurd h (by simp [System.init, AppState.new, Inner.empty])⟩

/-- The registered links have a receiver, so that a message to one of them is accepted. -/
structure LinksAlive (a : AppState) : Prop where
  bridge : a.liveBridge = a.inner.bridge
  clients : ∀ id link, a.inner.clients.lookup id = some link → link.id ∉ a.dropped

/-- In a run that draws no UUID twice. -/
theorem linksAlive_final {es : List Event} (hf : FreshRun cfg digest es) :
    LinksAlive (final cfg digest es).app := by
  have hall : Linked (final cfg digest es) ∧ ClientLinked (final cfg digest es) ∧
      KeyedById (final cfg digest es).app := by
    refine Run.forall_states (P := fun s => Linked s ∧ ClientLinked s ∧ KeyedById s.app)
      ⟨linked_init, clientLinked_init, keyedById_init⟩ ?_ _ (Run.final_mem_states _ es)
    rintro x hx ⟨hl, hc, hk⟩
    have hstep := (Run.mem_trace hx).2
    exact ⟨hl.step (hf x hx) hstep, hc.step hl hk (hf x hx) hstep, keyedById_step hstep hk⟩
  exact ⟨hall.1.liveBridge, hall.2.1.alive⟩

/-- **A reaper pass is exact**, in every reachable state and at every time. The messages of an expired session go
out once each, where the bridge and the client are connected (which is where they are registered, if no UUID is
drawn twice). -/
theorem reaper_pass_exact (cfg : Config) (digest : String → String) (es : List Event) (now : Nat) :
    PassExact now (final cfg digest es).app (reaperPass now (final cfg digest es).app) ∧
      (FreshRun cfg digest es → LinksAlive (final cfg digest es).app) := by
  obtain ⟨hk, ht⟩ := invariants_final cfg digest es
  exact ⟨passExact hk ht now, linksAlive_final⟩

end Reachable

/-! ## A pass and the redemption of a grant -/

/-- What `consume_browser_grant` answers at a time. -/
theorem consume_result (digest : String → String) (inner : Inner) (token : String) (now : Nat) :
    (consumeBrowserGrant digest inner token now).2 =
      (inner.browserGrants.lookup (digest token)).filter fun g => decide (now ≤ g.expiresAtMs) := by
  unfold consumeBrowserGrant
  cases inner.browserGrants.lookup (digest token) with
  | none => rfl
  | some g => by_cases h : now ≤ g.expiresAtMs <;> simp [h, Option.filter]

/-- **A pass cannot be told from what a redemption after it answers, except in the millisecond the grant expires
in**: the pass drops the grant (`> now`), the redemption accepts it (`>= now`). -/
theorem grant_kept_iff (digest : String → String) (a : AppState) (token : String) {t t' : Nat} (h : t ≤ t') :
    (consumeBrowserGrant digest (reaperPass t a).inner token t').2 =
        (consumeBrowserGrant digest a.inner token t').2 ↔
      ¬ (t = t' ∧ ∃ g, a.inner.browserGrants.lookup (digest token) = some g ∧ g.expiresAtMs = t) := by
  rw [consume_result, consume_result, (reaperPass_frame t a).2.2.2.1]
  cases a.inner.browserGrants.lookup (digest token) with
  | none => simp
  | some g =>
    rcases Nat.lt_trichotomy g.expiresAtMs t with hlt | rfl | hgt
    · have hdropped : ¬ t < g.expiresAtMs := by omega
      have hpast : ¬ t' ≤ g.expiresAtMs := by omega
      have hne : g.expiresAtMs ≠ t := by omega
      simp [Option.filter, hdropped, hpast, hne]
    · by_cases heq : g.expiresAtMs = t'
      · simp [Option.filter, heq]
      · have hpast : ¬ t' ≤ g.expiresAtMs := by omega
        simp [Option.filter, hpast, heq]
    · have hne : g.expiresAtMs ≠ t := by omega
      simp [Option.filter, hgt, hne]

/-- The grant of a run, and the millisecond it expires in. -/
def oneGrant : List Event := [.grant "grant" 1000]

/-- `grant_kept_iff` where the pass runs earlier than the redemption. -/
theorem grant_kept_early : 5000 ≤ 5001 ∧
    ((consumeBrowserGrant id (reaperPass 5000 (final octosConfig id oneGrant).app).inner "grant" 5001).2 =
        (consumeBrowserGrant id (final octosConfig id oneGrant).app.inner "grant" 5001).2 ↔
      ¬ (5000 = 5001 ∧ ∃ g, (final octosConfig id oneGrant).app.inner.browserGrants.lookup (id "grant") = some g ∧
        g.expiresAtMs = 5000)) :=
  ⟨by decide, grant_kept_iff id (final octosConfig id oneGrant).app "grant" (by decide)⟩

/-- In the millisecond the grant expires in, the redemption would accept it, and does not after a pass. -/
theorem grant_dropped_at_expiry :
    octosConfig.validate.toBool = true ∧ FreshRun octosConfig id oneGrant ∧
      ¬ ∀ t t' : Nat, t ≤ t' →
        (consumeBrowserGrant id (reaperPass t (final octosConfig id oneGrant).app).inner "grant" t').2 =
          (consumeBrowserGrant id (final octosConfig id oneGrant).app.inner "grant" t').2 := by
  refine ⟨by decide +kernel, by decide +kernel, fun h => ?_⟩
  have hsame := h 61000 61000 (le_refl _)
  exact absurd hsame (by decide +kernel)

end SenseVoice.ControlPlane
