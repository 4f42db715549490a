import SenseVoice.ControlPlane.Steps

/-!
# `create_session`: all or nothing

A creation either inserts one session, sends one `session.start` and, for a browser, takes the grant
it presented, or it refuses and leaves the sessions, the bridge links and every valid grant alone.
The handler takes the grant before it builds the credentials and sends, so a failure after that point
has already spent it.

Results:
* `wastes_spends`: such a failure is answered by an error, and the valid grant is gone;
* **`allOrNothing_iff`**: a creation is all or nothing exactly if it does not fail after it has taken
  a valid grant.
-/

namespace SenseVoice.ControlPlane

open Lib

variable {digest : String → String} {cfg : Config} {i : CreateInput} {a : AppState}

/-- The outcome of a successful creation: the state before, the state after, the reply. -/
structure CreatedAll (digest : String → String) (cfg : Config) (i : CreateInput) (a b : AppState)
    (r : Reply) : Prop where
  status : r.status = 201
  inserted : i.id ∉ a.inner.sessions ∧
    ∃ s, s.id = i.id ∧ b.inner.sessions = a.inner.sessions.insert i.id s
  started : ∃ link m, a.inner.bridge = some link ∧ b.bridgeOut = a.bridgeOut ++ [(link.id, m)] ∧
    m.strField "type" = some "session.start" ∧ m.strField "sessionId" = some i.id
  granted : if clientAuthorized i.req cfg then b.inner.browserGrants = a.inner.browserGrants
    else ∃ token, bearerToken i.req = some token ∧ digest token ∈ a.inner.browserGrants ∧
      b.inner.browserGrants = a.inner.browserGrants.erase (digest token)

/-- The outcome of a refused creation. -/
structure RefusedAll (i : CreateInput) (a b : AppState) (r : Reply) : Prop where
  status : 400 ≤ r.status
  sessions : b.inner.sessions = a.inner.sessions
  silent : b.bridgeOut = a.bridgeOut
  grants : ∀ d g, a.inner.browserGrants.lookup d = some g → g.expiresAtMs ≥ i.grantNow →
    b.inner.browserGrants.lookup d = some g

/-- `create_session` does all of it or nothing. -/
def AllOrNothing (digest : String → String) (cfg : Config) (i : CreateInput) (a : AppState) : Prop :=
  let r := createSession digest cfg i a
  CreatedAll digest cfg i a r.1 r.2 ∨ RefusedAll i a r.1 r.2

/-- A browser presents a valid grant while a bridge is registered and a slot is free, and then the
credentials cannot be built or the bridge's receiver is gone. -/
def WastesGrant (digest : String → String) (cfg : Config) (i : CreateInput) (a : AppState) : Prop :=
  clientAuthorized i.req cfg = false ∧ a.activeSessions < cfg.sessionCapacity ∧
    (∃ token g, bearerToken i.req = some token ∧
      a.inner.browserGrants.lookup (digest token) = some g ∧ g.expiresAtMs ≥ i.grantNow) ∧
    ∃ link, a.inner.bridge = some link ∧
      ((∃ r, credentials cfg i = .error r) ∨ link.id ∈ a.dropped)

/-- What the grant check leaves when a valid grant is presented. -/
theorem takeOwner_valid (hop : clientAuthorized i.req cfg = false) {token : String}
    (hb : bearerToken i.req = some token) {g : BrowserGrant}
    (hg : a.inner.browserGrants.lookup (digest token) = some g) (hv : g.expiresAtMs ≥ i.grantNow) :
    takeOwner digest cfg i a =
      (a.withGrants (a.inner.browserGrants.erase (digest token)), some (some g)) := by
  rcases takeOwner_cases digest cfg i a with
    ⟨h, -⟩ | ⟨-, -, hno⟩ | ⟨-, token', g', hb', hg', ht⟩
  · exact absurd (hop.symm.trans h) (by simp)
  · exact absurd (hg.symm.trans (hno token hb)) (by simp)
  · obtain rfl : token = token' := Option.some.inj (hb.symm.trans hb')
    obtain rfl : g = g' := Option.some.inj (hg.symm.trans hg')
    rw [ht, if_pos hv]

/-- A failure after a valid grant was taken answers an error, and the grant is gone. -/
theorem wastes_spends (h : WastesGrant digest cfg i a) :
    400 ≤ (createSession digest cfg i a).2.status ∧
      ∃ d g, a.inner.browserGrants.lookup d = some g ∧ g.expiresAtMs ≥ i.grantNow ∧
        (createSession digest cfg i a).1.inner.browserGrants.lookup d = none := by
  obtain ⟨hop, hcap, ⟨token, g, hb, hg, hv⟩, link, hlink, hfail⟩ := h
  have ht := takeOwner_valid (a := a) hop hb hg hv
  have hgone : (a.inner.browserGrants.erase (digest token)).lookup (digest token) = none :=
    AList.lookup_erase _ _
  rcases createSession_cases digest cfg i a with ⟨-, -, hn | hn | hn⟩ | ⟨hst, h1, -⟩ |
    ⟨hst, -, -, g', owner, ht', h1⟩ | ⟨-, -, -, link', owner, g', creds, hl', -, hc, -⟩
  · exact absurd (hb.symm.trans hn) (by simp)
  · exact absurd (hlink.symm.trans hn) (by simp)
  · omega
  · refine ⟨hst, digest token, g, hg, hv, ?_⟩
    rw [h1, ht]
    exact hgone
  · refine ⟨hst, digest token, g, hg, hv, ?_⟩
    obtain rfl : a.inner.browserGrants.erase (digest token) = g' :=
      congrArg (fun p => p.1.inner.browserGrants) (ht.symm.trans ht')
    rw [h1]
    exact hgone
  · obtain ⟨hl, hd⟩ := AppState.liveBridge_eq_some.mp hl'
    obtain rfl : link = link' := Option.some.inj (hlink.symm.trans hl)
    rcases hfail with ⟨r, hr⟩ | hdead
    · exact absurd (hr.symm.trans hc) (by simp)
    · exact absurd hdead hd

/-- A spent grant is neither outcome. -/
theorem not_allOrNothing (h : WastesGrant digest cfg i a) : ¬ AllOrNothing digest cfg i a := by
  obtain ⟨hst, d, g, hg, hv, hgone⟩ := wastes_spends h
  rintro (hall | hnone)
  · have := hall.status
    omega
  · exact absurd ((hnone.grants d g hg hv).symm.trans hgone) (by simp)

/-- The grant check keeps every valid grant, unless it takes the one presented. -/
theorem takeOwner_keeps
    (hno : ∀ token g, clientAuthorized i.req cfg = false → bearerToken i.req = some token →
      a.inner.browserGrants.lookup (digest token) = some g → ¬ g.expiresAtMs ≥ i.grantNow)
    {d : String} {g : BrowserGrant} (hg : a.inner.browserGrants.lookup d = some g)
    (hv : g.expiresAtMs ≥ i.grantNow) :
    (takeOwner digest cfg i a).1.inner.browserGrants.lookup d = some g := by
  rcases takeOwner_cases digest cfg i a with
    ⟨-, ht⟩ | ⟨-, ht, -⟩ | ⟨hop, token, g', hb, hg', ht⟩
  · rw [ht]
    exact hg
  · rw [ht]
    exact hg
  · rw [ht]
    simp only [AppState.withGrants, Table.lookup_erase_eq]
    by_cases hd : d = digest token
    · subst hd
      obtain rfl : g = g' := Option.some.inj (hg.symm.trans hg')
      exact absurd hv (hno token g hop hb hg)
    · rw [if_neg hd, hg]

/-- The grants a successful creation leaves. -/
theorem takeOwner_granted {t : Table String BrowserGrant} {owner : Option BrowserGrant}
    (h : takeOwner digest cfg i a = (a.withGrants t, some owner)) :
    if clientAuthorized i.req cfg then t = a.inner.browserGrants
    else ∃ token, bearerToken i.req = some token ∧ digest token ∈ a.inner.browserGrants ∧
      t = a.inner.browserGrants.erase (digest token) := by
  have hgrants : t = (takeOwner digest cfg i a).1.inner.browserGrants := by rw [h]; rfl
  rcases takeOwner_cases digest cfg i a with
    ⟨hop, ht⟩ | ⟨-, ht, -⟩ | ⟨hop, token, g, hb, hg, ht⟩
  · rw [if_pos hop, hgrants, ht]
  · rw [ht] at h
    exact absurd (congrArg Prod.snd h) (by simp)
  · rw [if_neg (by simp [hop]), hgrants, ht]
    exact ⟨token, hb, Table.mem_iff_lookup.mpr ⟨g, hg⟩, rfl⟩

/-- **`create_session` is all or nothing, exactly.** For a new session id: unless a browser's valid
grant has been taken and then the credentials fail or the bridge's receiver is gone. -/
theorem allOrNothing_iff (hid : i.id ∉ a.inner.sessions) :
    AllOrNothing digest cfg i a ↔ ¬ WastesGrant digest cfg i a := by
  refine ⟨fun hall hw => not_allOrNothing hw hall, fun hw => ?_⟩
  unfold AllOrNothing
  rcases createSession_cases digest cfg i a with ⟨hst, h1, -⟩ | ⟨hst, h1, hb, hcap, hwhy⟩ |
    ⟨hst, hcap, ⟨link, hlink, hd⟩, g, owner, ht, h1⟩ |
    ⟨hst, -, -, link, owner, g, creds, hlive, ht, hc, h1⟩
  · right
    refine ⟨hst, ?_, ?_, fun d g hg _ => ?_⟩ <;> rw [h1]
    exact hg
  · right
    obtain ⟨t, htg⟩ := takeOwner_state digest cfg i a
    refine ⟨hst, by rw [h1, htg]; rfl, by rw [h1, htg]; rfl, fun d g hg hv => ?_⟩
    rw [h1]
    refine takeOwner_keeps (fun token g' hop htok hg' hv' => ?_) hg hv
    rcases hwhy with hnone | hcred
    · rw [takeOwner_valid hop htok hg' hv'] at hnone
      exact absurd hnone (by simp)
    · obtain ⟨link, hlink⟩ := Option.isSome_iff_exists.mp hb
      exact hw ⟨hop, hcap, ⟨token, g', htok, hg', hv'⟩, link, hlink, Or.inl hcred⟩
  · right
    refine ⟨hst, by rw [h1]; rfl, by rw [h1]; rfl, fun d g' hg' hv => ?_⟩
    have hkeep : (takeOwner digest cfg i a).1.inner.browserGrants.lookup d = some g' :=
      takeOwner_keeps (fun token g₀ hop htok hg₀ hv₀ =>
        hw ⟨hop, hcap, ⟨token, g₀, htok, hg₀, hv₀⟩, link, hlink, Or.inr hd⟩) hg' hv
    rw [ht] at hkeep
    rw [h1]
    exact hkeep
  · left
    refine ⟨hst, ⟨hid, _, ?_, by rw [h1]; rfl⟩, ⟨link, _, (AppState.liveBridge_eq_some.mp hlive).1,
      by rw [h1]; rfl, startEvent_fields hc owner⟩, ?_⟩
    · rfl
    · rw [h1]
      exact takeOwner_granted ht

/-! ## A wasted grant -/

/-- The state with a bridge and one grant. -/
def grantedState : AppState := (final octosConfig id [.connect "link", .grant "grant" 0]).app

/-- `allOrNothing_iff` at a browser's successful creation. -/
theorem allOrNothing_browser :
    AllOrNothing id octosConfig (browserCreate "grant" "first" 5 (.ok "token")) grantedState ↔
      ¬ WastesGrant id octosConfig (browserCreate "grant" "first" 5 (.ok "token")) grantedState :=
  allOrNothing_iff (by decide +kernel)

/-- The token builder fails, or the bridge's receiver is gone: the valid grant is spent, no session
is created. -/
theorem grant_wasted :
    octosConfig.validate.toBool = true ∧
      ¬ AllOrNothing id octosConfig (browserCreate "grant" "first" 5 (.error "clock")) grantedState ∧
      ¬ AllOrNothing id octosConfig (browserCreate "grant" "first" 5 (.ok "token"))
          { grantedState with dropped := ["link"] } := by
  refine ⟨by decide +kernel, not_allOrNothing ?_, not_allOrNothing ?_⟩
  · refine ⟨by decide +kernel, by decide +kernel, ⟨"grant", ⟨"user-1", "profile-1", 60000⟩,
      by decide +kernel, by decide +kernel, by decide⟩, ⟨"link"⟩, by decide +kernel,
      Or.inl ⟨tokenGenerationFailed, rfl⟩⟩
  · refine ⟨by decide +kernel, by decide +kernel, ⟨"grant", ⟨"user-1", "profile-1", 60000⟩,
      by decide +kernel, by decide +kernel, by decide⟩, ⟨"link"⟩, by decide +kernel,
      Or.inr (by decide)⟩

end SenseVoice.ControlPlane
