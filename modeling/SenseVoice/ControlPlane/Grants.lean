import SenseVoice.ControlPlane.Steps

/-!
# Browser grants are single-use

A run is read as a ledger of issued and redeemed grants. `Issues` is a step that issues a grant,
`Redeems` a step that creates a session for a bearer that is not the operator's. The instant a session
is created is the handler's clock reading at the grant check.

Assumed of a run, by `DistinctTokens` and `InjectiveOn`: issued tokens are pairwise distinct, and the
digest is injective on the tokens that are issued or presented.

Results:
* `step_grants`: a grant in the table was there before or has just been issued;
* `redeem_consumes`: a redemption finds a valid grant and removes it;
* `ledger_before`: along a run, every grant in the table was issued and is unused;
* **`grants_single_use`**: a session is created by the operator, or for an issued, unexpired, unused
  grant whose identity it carries.
-/

namespace SenseVoice.ControlPlane

open Lib Run

variable {cfg : Config} {digest : String → String} {s t : System} {e : Event}

/-- The step issues the token for the given identity at the given time. -/
def Issues (cfg : Config) (x : Taken System Event) (token subject profileId : String)
    (issuedAt : Nat) : Prop :=
  ∃ req body, x.event = .createBrowserGrant req body issuedAt token ∧
    grantIdentity cfg req body = .ok ⟨subject, profileId⟩

/-- The grant an issue files. -/
def issuedGrant (cfg : Config) (subject profileId : String) (issuedAt : Nat) : BrowserGrant :=
  ⟨Text.trim subject, Text.trim profileId, grantExpiry issuedAt cfg.browserGrantTtlSeconds⟩

/-- The step answers `201` to the creation with input `i`. -/
def Creates (cfg : Config) (digest : String → String) (x : Taken System Event) (i : CreateInput) :
    Prop :=
  x.event = .createSession i ∧ (createSession digest cfg i x.before.app).2.status = 201

/-- The step creates a session for a bearer that is not the operator's. -/
def Redeems (cfg : Config) (digest : String → String) (x : Taken System Event) (token : String) :
    Prop :=
  ∃ i, Creates cfg digest x i ∧ clientAuthorized i.req cfg = false ∧
    bearerToken i.req = some token

/-- The token a step issues. -/
def issuedToken (cfg : Config) (x : Taken System Event) : Option String :=
  match x.event with
  | .createBrowserGrant req body _ token =>
    match grantIdentity cfg req body with
    | .ok _ => some token
    | .error _ => none
  | _ => none

/-- The bearer a creation presents. -/
def presentedToken (x : Taken System Event) : Option String :=
  match x.event with
  | .createSession i => bearerToken i.req
  | _ => none

/-- No token is issued twice. -/
def DistinctTokens (cfg : Config) (xs : List (Taken System Event)) : Prop :=
  (xs.filterMap (issuedToken cfg)).Nodup

/-- The digest is injective on the tokens the steps issue or present. -/
def InjectiveOn (cfg : Config) (digest : String → String) (xs : List (Taken System Event)) : Prop :=
  ∀ a ∈ xs.filterMap (issuedToken cfg) ++ xs.filterMap presentedToken,
    ∀ b ∈ xs.filterMap (issuedToken cfg) ++ xs.filterMap presentedToken, digest a = digest b → a = b

theorem issuedToken_iff {x : Taken System Event} {token : String} :
    issuedToken cfg x = some token ↔ ∃ subject profileId at', Issues cfg x token subject profileId at' := by
  unfold issuedToken Issues
  constructor
  · intro h
    split at h
    · rename_i req body now tok he
      split at h
      · rename_i request hg
        obtain rfl := Option.some.inj h
        exact ⟨request.subject, request.profileId, now, req, body, he, hg⟩
      · exact absurd h (by simp)
    · exact absurd h (by simp)
  · rintro ⟨subject, profileId, now, req, body, he, hg⟩
    simp only [he, hg]

theorem presented_of_redeems {x : Taken System Event} {token : String}
    (h : Redeems cfg digest x token) : presentedToken x = some token := by
  obtain ⟨i, ⟨he, -⟩, -, hb⟩ := h
  simp only [presentedToken, he, hb]

/-! ## One step -/

/-- What a creation leaves of the grants was there before. -/
theorem takeOwner_grants {i : CreateInput} {a : AppState} {d : String} {g : BrowserGrant}
    (h : (takeOwner digest cfg i a).1.inner.browserGrants.lookup d = some g) :
    a.inner.browserGrants.lookup d = some g := by
  rcases takeOwner_cases digest cfg i a with ⟨-, ht⟩ | ⟨-, ht, -⟩ | ⟨-, token, _, -, -, ht⟩
  · rwa [ht] at h
  · rwa [ht] at h
  · rw [ht] at h
    simp only [AppState.withGrants, Table.lookup_erase_eq] at h
    split at h
    · exact absurd h (by simp)
    · exact h

/-- A grant in the table was there before or has just been issued. -/
theorem step_grants (h : step cfg digest s e = some t) {d : String} {g : BrowserGrant}
    (hg : t.app.inner.browserGrants.lookup d = some g) :
    s.app.inner.browserGrants.lookup d = some g ∨
      ∃ token subject profileId at', Issues cfg ⟨s, e, t⟩ token subject profileId at' ∧
        digest token = d ∧ g = issuedGrant cfg subject profileId at' := by
  rw [step_app h] at hg
  cases e with
  | createBrowserGrant req body now token =>
    rw [Event.apply] at hg
    rcases createBrowserGrant_cases digest cfg req body now token s.app with
      ⟨h1, -⟩ | ⟨request, hid, -, h1⟩
    · rw [h1] at hg
      exact Or.inl hg
    · rw [h1] at hg
      rcases Table.lookup_insert_cases hg with ⟨hd, hissued⟩ | ⟨-, hold⟩
      · exact Or.inr ⟨token, request.subject, request.profileId, now, ⟨req, body, rfl, hid⟩,
          hd.symm, hissued.symm⟩
      · exact Or.inl hold
  | createSession i =>
    rw [Event.apply] at hg
    left
    rcases createSession_cases digest cfg i s.app with ⟨-, h1, -⟩ | ⟨-, h1, -⟩ |
      ⟨-, -, -, g', owner, ht, h1⟩ | ⟨-, -, -, link, owner, g', creds, -, ht, -, h1⟩
    · rwa [h1] at hg
    · rw [h1] at hg
      exact takeOwner_grants hg
    · rw [h1] at hg
      exact takeOwner_grants (by rw [ht]; exact hg)
    · rw [h1] at hg
      exact takeOwner_grants (by rw [ht]; exact hg)
  | access req c => exact Or.inl hg
  | command c =>
    rw [Event.apply] at hg
    left
    cases c with
    | commit k => rwa [runCommand, commitUtterance, (forward_frame k _ s.app).1] at hg
    | speak k body => rwa [runCommand, (speakText_frame k body s.app).1] at hg
    | delete k =>
      rw [runCommand] at hg
      cases hk : s.app.inner.sessions.lookup k with
      | none => rwa [deleteSession_none hk] at hg
      | some r => rwa [(deleteSession_some hk).2.2.2.1] at hg
  | bridgeConnect req socketId =>
    rw [Event.apply] at hg
    split at hg <;> exact Or.inl hg
  | bridgeMessage socketId message times =>
    rw [Event.apply, (handleBridgeEvent_frame message times s.app).2.2.2.1] at hg
    exact Or.inl hg
  | bridgeDisconnect socketId =>
    rw [Event.apply] at hg
    by_cases hb : s.app.inner.bridge = some ⟨socketId⟩
    · rw [(bridgeDisconnect_current hb).2.2.2.1] at hg
      exact Or.inl hg
    · rw [bridgeDisconnect_stale hb] at hg
      exact Or.inl hg
  | clientWs req => exact Or.inl hg
  | clientOpen k socketId =>
    rw [Event.apply] at hg
    cases ho : clientOpen k socketId s.app with
    | none => rw [ho] at hg; exact Or.inl hg
    | some b =>
      rw [ho, Option.getD_some, (clientOpen_some ho).2.1] at hg
      exact Or.inl hg
  | clientClose k socketId =>
    rw [Event.apply, (clientClose_frame k socketId s.app).2.2.2.1] at hg
    exact Or.inl hg
  | reaper now =>
    rw [Event.apply, (reaperPass_frame now s.app).2.2.2.1 d] at hg
    exact Or.inl (Option.filter_eq_some_iff.mp hg).1
  | rehash sessions => exact Or.inl hg

/-- A redemption finds a valid grant under the digest of its bearer, files the session under its
owner, and removes the grant. -/
theorem redeem_consumes (h : step cfg digest s (.createSession i) = some t) {token : String}
    (hst : (createSession digest cfg i s.app).2.status = 201)
    (hop : clientAuthorized i.req cfg = false) (hb : bearerToken i.req = some token) :
    ∃ g, s.app.inner.browserGrants.lookup (digest token) = some g ∧ i.grantNow ≤ g.expiresAtMs ∧
      t.app.inner.browserGrants.lookup (digest token) = none ∧
      t.app.inner.sessions.lookup i.id = some (newSession cfg i (some g)) := by
  have happ := step_app h
  rw [Event.apply] at happ
  rcases createSession_cases digest cfg i s.app with ⟨hbad, -⟩ | ⟨hbad, -⟩ | ⟨hbad, -⟩ |
    ⟨-, -, -, link, owner, g', creds, -, ht, -, h1⟩
  · omega
  · omega
  · omega
  · rcases takeOwner_cases digest cfg i s.app with
      ⟨hop', -⟩ | ⟨-, ht', -⟩ | ⟨-, token', g, hb', hg, ht'⟩
    · exact absurd (hop.symm.trans hop') (by simp)
    · exact absurd (congrArg Prod.snd (ht.symm.trans ht')) (by simp)
    · obtain rfl : token = token' := Option.some.inj (hb.symm.trans hb')
      have howner := congrArg Prod.snd (ht.symm.trans ht')
      have htable : g' = s.app.inner.browserGrants.erase (digest token) :=
        congrArg (fun p => p.1.inner.browserGrants) (ht.symm.trans ht')
      by_cases hv : g.expiresAtMs ≥ i.grantNow
      · rw [if_pos hv] at howner
        obtain rfl := Option.some.inj howner
        refine ⟨g, hg, hv, ?_, ?_⟩
        · rw [happ, h1, createdState, htable]
          exact AList.lookup_erase _ _
        · rw [happ, h1, createdState, Table.lookup_insert_eq, if_pos rfl]
      · rw [if_neg hv] at howner
        exact absurd howner (by simp)

/-! ## The ledger of a run -/

/-- The steps taken account for the grants in the table: each was issued and is unused, and only
issued tokens have been redeemed. -/
structure Ledger (cfg : Config) (digest : String → String) (past : List (Taken System Event))
    (s : System) : Prop where
  backed : ∀ d g, s.app.inner.browserGrants.lookup d = some g →
    ∃ y ∈ past, ∃ token subject profileId at', Issues cfg y token subject profileId at' ∧
      digest token = d ∧ g = issuedGrant cfg subject profileId at'
  unused : ∀ d g, s.app.inner.browserGrants.lookup d = some g →
    ∀ z ∈ past, ∀ token, Redeems cfg digest z token → digest token ≠ d
  redeemed : ∀ z ∈ past, ∀ token, Redeems cfg digest z token →
    token ∈ past.filterMap (issuedToken cfg)

theorem issued_mem {past : List (Taken System Event)} {y : Taken System Event} (hy : y ∈ past)
    {token subject profileId : String} {at' : Nat} (hi : Issues cfg y token subject profileId at') :
    token ∈ past.filterMap (issuedToken cfg) :=
  List.mem_filterMap.mpr ⟨y, hy, issuedToken_iff.mpr ⟨_, _, _, hi⟩⟩

/-- Both assumptions pass to the beginning of a run. -/
theorem InjectiveOn.append_left {past rest : List (Taken System Event)}
    (h : InjectiveOn cfg digest (past ++ rest)) : InjectiveOn cfg digest past := by
  have hsub : ∀ a ∈ past.filterMap (issuedToken cfg) ++ past.filterMap presentedToken,
      a ∈ (past ++ rest).filterMap (issuedToken cfg) ++ (past ++ rest).filterMap presentedToken := by
    intro a ha
    rw [List.filterMap_append, List.filterMap_append]
    rcases List.mem_append.mp ha with ha | ha
    · exact List.mem_append_left _ (List.mem_append_left _ ha)
    · exact List.mem_append_right _ (List.mem_append_left _ ha)
  exact fun a ha b hb => h a (hsub a ha) b (hsub b hb)

theorem DistinctTokens.append_left {past rest : List (Taken System Event)}
    (h : DistinctTokens cfg (past ++ rest)) : DistinctTokens cfg past := by
  unfold DistinctTokens at h ⊢
  rw [List.filterMap_append] at h
  exact h.of_append_left

/-- The bearer of a redemption is the token of the grant it takes. -/
theorem Ledger.redeemed_token {past : List (Taken System Event)} {x : Taken System Event}
    (hl : Ledger cfg digest past x.before) (hinj : InjectiveOn cfg digest (past ++ [x]))
    {token : String} (hp : presentedToken x = some token) {g : BrowserGrant}
    (hg : x.before.app.inner.browserGrants.lookup (digest token) = some g) :
    ∃ y ∈ past, ∃ subject profileId at', Issues cfg y token subject profileId at' ∧
      g = issuedGrant cfg subject profileId at' := by
  obtain ⟨y, hy, token', subject, profileId, at', hi, hd, hgr⟩ := hl.backed _ g hg
  have hissued : token' ∈ (past ++ [x]).filterMap (issuedToken cfg) := by
    rw [List.filterMap_append]
    exact List.mem_append_left _ (issued_mem hy hi)
  have hpresented : token ∈ (past ++ [x]).filterMap presentedToken :=
    List.mem_filterMap.mpr ⟨x, List.mem_append_right _ List.mem_cons_self, hp⟩
  obtain rfl := hinj token' (List.mem_append_left _ hissued) token
    (List.mem_append_right _ hpresented) hd
  exact ⟨y, hy, subject, profileId, at', hi, hgr⟩

/-- A step keeps the ledger, when it issues no old token. -/
theorem Ledger.step {past : List (Taken System Event)} (hl : Ledger cfg digest past s)
    (h : ControlPlane.step cfg digest s e = some t)
    (hdist : DistinctTokens cfg (past ++ [⟨s, e, t⟩]))
    (hinj : InjectiveOn cfg digest (past ++ [⟨s, e, t⟩])) :
    Ledger cfg digest (past ++ [⟨s, e, t⟩]) t := by
  refine ⟨fun d g hg => ?_, fun d g hg z hz token hr hd => ?_, fun z hz token hr => ?_⟩
  · rcases step_grants h hg with hold | ⟨token, subject, profileId, at', hi, hd, hgr⟩
    · obtain ⟨y, hy, hrest⟩ := hl.backed d g hold
      exact ⟨y, List.mem_append_left _ hy, hrest⟩
    · exact ⟨_, List.mem_append_right _ List.mem_cons_self, token, subject, profileId, at', hi, hd,
        hgr⟩
  · rcases List.mem_append.mp hz with hz | hz
    · rcases step_grants h hg with hold | ⟨token', subject, profileId, at', hi, hd', -⟩
      · exact hl.unused d g hold z hz token hr hd
      · -- a token issued now cannot be one that was redeemed, hence issued, before
        have hnew : issuedToken cfg ⟨s, e, t⟩ = some token' := issuedToken_iff.mpr ⟨_, _, _, hi⟩
        have hmem := hl.redeemed z hz token hr
        unfold DistinctTokens at hdist
        rw [List.filterMap_append, List.nodup_append] at hdist
        have hnew' : token' ∈ [(⟨s, e, t⟩ : Taken System Event)].filterMap (issuedToken cfg) :=
          List.mem_filterMap.mpr ⟨_, List.mem_cons_self, hnew⟩
        refine hdist.2.2 token hmem token' hnew' (hinj token ?_ token' ?_ (hd.trans hd'.symm))
        · rw [List.filterMap_append]
          exact List.mem_append_left _ (List.mem_append_left _ hmem)
        · rw [List.filterMap_append]
          exact List.mem_append_left _ (List.mem_append_right _ hnew')
    · obtain rfl := List.mem_singleton.mp hz
      obtain ⟨i, ⟨he, hst⟩, hop, hb⟩ := hr
      simp only at he hst
      subst he
      obtain ⟨g', -, -, hgone, -⟩ := redeem_consumes h hst hop hb
      rw [hd] at hgone
      exact absurd (hg.symm.trans hgone) (by simp)
  · rw [List.filterMap_append]
    rcases List.mem_append.mp hz with hz | hz
    · exact List.mem_append_left _ (hl.redeemed z hz token hr)
    · obtain rfl := List.mem_singleton.mp hz
      have hp := presented_of_redeems hr
      obtain ⟨i, ⟨he, hst⟩, hop, hb⟩ := hr
      simp only at he hst
      subst he
      obtain ⟨g, hg, -⟩ := redeem_consumes h hst hop hb
      obtain ⟨y, hy, subject, profileId, at', hi, -⟩ :=
        Ledger.redeemed_token (x := ⟨s, _, t⟩) hl hinj hp hg
      exact List.mem_append_left _ (issued_mem hy hi)

/-- **The ledger** holds before every step of a run. -/
theorem ledger_before {es : List Event} {pre post : List (Taken System Event)}
    {x : Taken System Event} (h : trace cfg digest es = pre ++ x :: post)
    (hdist : DistinctTokens cfg pre) (hinj : InjectiveOn cfg digest pre) :
    Ledger cfg digest pre x.before := by
  refine forall_history (I := fun past s => DistinctTokens cfg past → InjectiveOn cfg digest past →
    Ledger cfg digest past s) ?_ ?_ h hdist hinj
  · intro _ _
    exact ⟨fun d g hg => absurd hg (by simp [System.init, AppState.new, Inner.empty]),
      fun d g _ z hz => absurd hz List.not_mem_nil, fun z hz => absurd hz List.not_mem_nil⟩
  · intro past s e t hI hstep hd hi
    exact (hI hd.append_left hi.append_left).step hstep hd hi

/-! ## Single use -/

theorem clientAuthorized_iff (hclosed : (cfg.demoMode && cfg.clientAccessToken.isEmpty) = false)
    (req : Request) :
    clientAuthorized req cfg = true ↔ bearerToken req = some cfg.clientAccessToken := by
  unfold clientAuthorized
  rw [hclosed]
  cases bearerToken req with
  | none => simp
  | some token =>
    simp only [Bool.false_eq_true, if_false, Option.any_some, secretMatches_iff, Option.some.injEq]
    exact eq_comm

/-- An issued grant expires at most its lifetime after its issue. -/
theorem grantExpiry_le (now ttl : Nat) : grantExpiry now ttl ≤ now + ttl * 1000 := by
  unfold grantExpiry saturatingAdd saturatingMul
  omega

/-- A creation for a grant: the bearer was issued by an earlier step and has not expired at the grant
check, the session is the issued identity's, and no earlier step redeemed the bearer. -/
structure FreshRedemption (cfg : Config) (digest : String → String)
    (pre : List (Taken System Event)) (x : Taken System Event) (i : CreateInput)
    (token subject profileId : String) (issuedAt : Nat) : Prop where
  presented : bearerToken i.req = some token
  issued : ∃ y ∈ pre, Issues cfg y token subject profileId issuedAt
  unexpired : i.grantNow ≤ issuedAt + cfg.browserGrantTtlSeconds * 1000
  owner : ∃ r, x.after.app.inner.sessions.lookup i.id = some r ∧
    r.ownerSubject = some (Text.trim subject) ∧ r.ownerProfileId = some (Text.trim profileId)
  unused : ∀ z ∈ pre, ¬ Redeems cfg digest z token

/-- **Browser grants are single-use capabilities.** In any run whose issued tokens are distinct, with
a digest injective on the tokens issued or presented and a plane that is not open to everyone, every
step that creates a session presents the operator's token or is a fresh redemption. -/
theorem grants_single_use {es : List Event}
    (hclosed : (cfg.demoMode && cfg.clientAccessToken.isEmpty) = false)
    (hdist : DistinctTokens cfg (trace cfg digest es))
    (hinj : InjectiveOn cfg digest (trace cfg digest es))
    {pre post : List (Taken System Event)} {x : Taken System Event}
    (hx : trace cfg digest es = pre ++ x :: post) {i : CreateInput} (hc : Creates cfg digest x i) :
    bearerToken i.req = some cfg.clientAccessToken ∨
      ∃ token subject profileId issuedAt,
        FreshRedemption cfg digest pre x i token subject profileId issuedAt := by
  have hsplit : trace cfg digest es = (pre ++ [x]) ++ post := by rw [hx]; simp
  have hstep := (mem_trace (by rw [hx]; simp : x ∈ trace cfg digest es)).2
  rw [hsplit] at hdist hinj
  have hinj' : InjectiveOn cfg digest (pre ++ [x]) := hinj.append_left
  have hl := ledger_before hx hdist.append_left.append_left hinj'.append_left
  cases hop : clientAuthorized i.req cfg with
  | true => exact Or.inl ((clientAuthorized_iff hclosed i.req).mp hop)
  | false =>
    right
    obtain ⟨he, hst⟩ := hc
    have hbearer : ∃ token, bearerToken i.req = some token := by
      rcases createSession_cases digest cfg i x.before.app with ⟨hbad, -⟩ | ⟨hbad, -⟩ | ⟨hbad, -⟩ |
        ⟨-, hor, -⟩
      · omega
      · omega
      · omega
      · exact hor.resolve_left (by simp [hop])
    obtain ⟨token, hb⟩ := hbearer
    have hp : presentedToken x = some token := by simp only [presentedToken, he, hb]
    rw [he] at hstep
    obtain ⟨g, hg, hv, -, hrec⟩ := redeem_consumes hstep hst hop hb
    obtain ⟨y, hy, subject, profileId, issuedAt, hi, rfl⟩ := hl.redeemed_token hinj' hp hg
    refine ⟨token, subject, profileId, issuedAt, hb, ⟨y, hy, hi⟩, ?_, ⟨_, hrec, rfl, rfl⟩, ?_⟩
    · exact Nat.le_trans hv (grantExpiry_le _ _)
    · exact fun z hz hr => hl.unused _ _ hg z hz token hr rfl

/-- A browser redeems the grant issued five milliseconds earlier. -/
theorem grants_single_use_browser :
    ∃ x : Taken System Event,
      x.event = .createSession (browserCreate "grant" "first" 5 (.ok "token")) ∧
      (bearerToken (browserCreate "grant" "first" 5 (.ok "token")).req =
          some octosConfig.clientAccessToken ∨
        ∃ token subject profileId issuedAt, FreshRedemption octosConfig id
          (trace octosConfig id [.connect "link", .grant "grant" 0]) x
          (browserCreate "grant" "first" 5 (.ok "token")) token subject profileId issuedAt) := by
  obtain ⟨t, ht⟩ : ∃ t, step octosConfig id (final octosConfig id [.connect "link", .grant "grant" 0])
      (.createSession (browserCreate "grant" "first" 5 (.ok "token"))) = some t := ⟨_, if_pos rfl⟩
  have hst : (createSession id octosConfig (browserCreate "grant" "first" 5 (.ok "token"))
      (final octosConfig id [.connect "link", .grant "grant" 0]).app).2.status = 201 := by
    decide +kernel
  refine ⟨⟨_, _, t⟩, rfl, grants_single_use (by decide) ?_ (fun _ _ _ _ h => h)
    (trace_split _ _ [] ht) ⟨rfl, hst⟩⟩
  unfold DistinctTokens
  decide +kernel

end SenseVoice.ControlPlane
