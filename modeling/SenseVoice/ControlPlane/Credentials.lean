import SenseVoice.ControlPlane.LivekitToken
import SenseVoice.ControlPlane.Steps

/-!
# The RTC credentials of a session

`create_session` with the two token builders of the repository: `CreateInput.issue` puts them in place of
the functions that its model takes as parameters. Each of the two calls reads the clock and draws a UUID
itself (`Reading`); the calls differ in the role, or in the identity.

`grantOf` is what a credential allows, read out of its token: the channel, joining, publishing audio, and the
second it ends. The bridge publishes the speech of `session.speak` into the channel with either provider
(`AgoraReceiver.start` calls `publish_audio` as a broadcaster), so it needs all of these.

Results:
* **`admission_cannot_fail`**: a validated configuration never meets `token_generation_failed`;
* `grants_issue`: the grants of the two credentials, which end `rtc_token_ttl_seconds` after the whole second
  they were issued in;
* **`bridge_may_publish_iff`**: the bridge's credential lets it publish audio exactly with LiveKit.
-/

namespace SenseVoice.ControlPlane

open Lib Wire Text

/-- The functions of the crates that the token builders use. -/
structure Crates where
  agora : TokenCrypto
  livekit : JwtCrypto

/-- What one call of a token builder reads: the clock, and the number it draws. -/
structure Reading where
  clockMs : ℤ
  random : UInt32

/-- The clock's seconds fit in `u32`. -/
def Reading.InRange (r : Reading) : Prop := 0 ≤ r.clockMs ∧ r.clockMs / 1000 < 2 ^ 32

/-- The clock's milliseconds fit in `u64`, with the longest lifetime of a token added. -/
def Reading.Fits (r : Reading) : Prop := r.clockMs + 86400000 < 2 ^ 64

/-- The clock's seconds. -/
def Reading.seconds (r : Reading) : ℕ := (r.clockMs / 1000).toNat

/-- The readings of the two calls. -/
structure Readings where
  client : Reading
  bridge : Reading

/-- `create_session` with the builders of `agora_token.rs` and `livekit_token.rs`. -/
def CreateInput.issue (crates : Crates) (rs : Readings) (i : CreateInput) : CreateInput :=
  { i with
    rtc := fun appId certificate channel uid role ttl =>
      let r := if role = .audioPublisher then rs.client else rs.bridge
      buildRtcToken crates.agora r.clockMs r.random appId certificate channel (UInt32.ofNat uid) role
        (UInt32.ofNat ttl)
    livekit := fun apiKey apiSecret identity room canPublish ttl =>
      let r := if startsWith identity "client-" then rs.client else rs.bridge
      buildLivekitToken crates.livekit r.clockMs
        ⟨apiKey, apiSecret, identity, room, canPublish, UInt32.ofNat ttl⟩ }

/-- `format!("{}-{}", channel_prefix, Uuid::new_v4().simple())`. -/
def channelOf (cfg : Config) (i : CreateInput) : String := cfg.channelPrefix ++ "-" ++ i.channel

/-! ## What a credential allows -/

/-- What a credential allows: in which channel, to join, to publish audio, and until which second. -/
structure RtcGrant where
  channel : String
  join : Bool
  publishAudio : Bool
  expires : ℕ
deriving DecidableEq

/-- The grant of an Agora token. -/
def agoraGrant (crypto : TokenCrypto) (token : String) : Option RtcGrant := do
  let payload ← decodePayload crypto token
  let t ← whole readToken payload
  let channel ← ofBytes t.channel
  return ⟨channel, (t.privileges.lookup privilegeJoinChannel).isSome,
    (t.privileges.lookup privilegePublishAudio).isSome,
    t.issueTimestamp.toNat + t.expiresInSeconds.toNat⟩

/-- The grant of a LiveKit token. -/
def livekitGrant (crypto : JwtCrypto) (token : String) : Option RtcGrant := do
  let claims ← decodeClaims crypto token
  let g ← readGrant claims
  return ⟨g.room, g.roomJoin, g.canPublish, g.expires⟩

/-- The grant of a message's credential, of whichever provider it is. -/
def grantOf (crates : Crates) (message : Value) : Option RtcGrant :=
  match message.get "livekit" with
  | some credential => (credential.strField "token").bind (livekitGrant crates.livekit)
  | none =>
    ((message.get "agora").bind fun credential => credential.strField "token").bind (agoraGrant crates.agora)

section Issue

variable {crates : Crates} {cfg : Config} {i : CreateInput} {rs : Readings}

/-- The arguments of `build_rtc_token_at` in a call of `build_rtc_token`. -/
def rtcArguments (cfg : Config) (i : CreateInput) (uid : ℕ) (role : RtcRole) (r : Reading) : RtcArguments :=
  ⟨cfg.agoraAppId, cfg.agoraAppCertificate, channelOf cfg i, UInt32.ofNat uid, role,
    UInt32.ofNat cfg.rtcTokenTtlSeconds, UInt32.ofNat r.seconds, r.random % 99999998 + 1⟩

/-- The arguments of `build_livekit_token`. -/
def livekitArguments (cfg : Config) (i : CreateInput) (identity : String) : LivekitArguments :=
  ⟨cfg.livekitApiKey, cfg.livekitApiSecret, identity, channelOf cfg i, true,
    UInt32.ofNat cfg.rtcTokenTtlSeconds⟩

theorem secondsSinceEpoch_ok {r : Reading} (h : 0 ≤ r.clockMs) :
    secondsSinceEpoch r.clockMs = .ok r.seconds := by
  rw [secondsSinceEpoch, if_neg (Int.not_lt.mpr h)]
  rfl

theorem seconds_lt {r : Reading} (h : r.InRange) : r.seconds < 2 ^ 32 := by
  have := h.2
  unfold Reading.seconds
  omega

theorem byteLen_channelOf (hlen : byteLen cfg.channelPrefix ≤ 24) (hchannel : byteLen i.channel = 32) :
    channelOf cfg i ≠ "" ∧ byteLen (channelOf cfg i) ≤ 63 := by
  have hlen : byteLen (channelOf cfg i) = byteLen cfg.channelPrefix + 1 + 32 := by
    rw [channelOf, byteLen_append, byteLen_append, hchannel]
    rfl
  refine ⟨fun hempty => ?_, by omega⟩
  rw [hempty] at hlen
  exact absurd hlen (by rw [show byteLen "" = 0 from rfl]; omega)

/-- The checks of the builder hold for every configuration that the start-up checks accept. -/
theorem rtcArguments_valid (h : cfg.Validated) (hagora : cfg.rtcProvider = "agora")
    (hchannel : byteLen i.channel = 32) {uid : ℕ} (huid : uid ≠ 0 ∧ uid < 2 ^ 32) (role : RtcRole)
    (r : Reading) : (rtcArguments cfg i uid role r).Valid := by
  have hsession := h.sessionTtl
  have httl := h.tokenTtl
  have hnat : (UInt32.ofNat cfg.rtcTokenTtlSeconds).toNat = cfg.rtcTokenTtlSeconds := by
    rw [UInt32.toNat_ofNat']
    omega
  have huid' : UInt32.ofNat uid ≠ 0 := by
    intro hzero
    have hnat := congrArg UInt32.toNat hzero
    rw [UInt32.toNat_ofNat', UInt32.toNat_zero, Nat.mod_eq_of_lt huid.2] at hnat
    exact huid.1 hnat
  have hlifetime : 1 ≤ (UInt32.ofNat cfg.rtcTokenTtlSeconds).toNat ∧
      (UInt32.ofNat cfg.rtcTokenTtlSeconds).toNat ≤ 86400 := by
    rw [hnat]
    omega
  exact ⟨(h.credentials hagora).1, (h.credentials hagora).2, byteLen_channelOf h.channelPrefix hchannel,
    huid', hlifetime⟩

/-- The Agora token of a call. -/
theorem buildRtcToken_ok (crates : Crates) (h : cfg.Validated) (hagora : cfg.rtcProvider = "agora")
    (hchannel : byteLen i.channel = 32) {uid : ℕ} (huid : uid ≠ 0 ∧ uid < 2 ^ 32) (role : RtcRole)
    {r : Reading} (hr : r.InRange) :
    buildRtcToken crates.agora r.clockMs r.random cfg.agoraAppId cfg.agoraAppCertificate (channelOf cfg i)
        (UInt32.ofNat uid) role (UInt32.ofNat cfg.rtcTokenTtlSeconds) =
      .ok (tokenOf crates.agora (rtcArguments cfg i uid role r)) := by
  have hvalid := rtcArguments_valid h hagora hchannel huid role r
  rcases buildRtcTokenAt_cases crates.agora (rtcArguments cfg i uid role r) with ⟨-, hok⟩ | ⟨hnot, -⟩
  · unfold buildRtcToken
    rw [secondsSinceEpoch_ok hr.1]
    simp only [bind, Except.bind]
    rw [if_pos (seconds_lt hr)]
    exact hok
  · exact absurd hvalid hnot

theorem buildRtcToken_error (crates : Crates) {r : Reading} (hr : ¬ r.InRange) (uid : UInt32)
    (role : RtcRole) (ttl : UInt32) (appId certificate channel : String) :
    ∃ e, buildRtcToken crates.agora r.clockMs r.random appId certificate channel uid role ttl =
      .error e := by
  unfold buildRtcToken secondsSinceEpoch
  by_cases hneg : r.clockMs < 0
  · rw [if_pos hneg]
    exact ⟨_, rfl⟩
  · have hlarge : ¬ (r.clockMs / 1000).toNat < 2 ^ 32 := by
      unfold Reading.InRange at hr
      omega
    rw [if_neg hneg]
    simp only [bind, Except.bind]
    rw [if_neg hlarge]
    exact ⟨_, rfl⟩

/-- The LiveKit token of a call. -/
theorem buildLivekitToken_ok (a : LivekitArguments) {r : Reading} (hr : 0 ≤ r.clockMs) :
    buildLivekitToken crates.livekit r.clockMs a = .ok (livekitToken crates.livekit a r.seconds) := by
  unfold buildLivekitToken
  rw [secondsSinceEpoch_ok hr]
  rfl

/-- The credentials that two LiveKit tokens make. -/
def livekitCredentials (crates : Crates) (cfg : Config) (i : CreateInput) (rs : Readings) : Value × Value :=
  (livekitCredential cfg.livekitUrl (channelOf cfg i) ("bridge-" ++ toString cfg.bridgeUid)
      (livekitToken crates.livekit (livekitArguments cfg i ("bridge-" ++ toString cfg.bridgeUid))
        rs.bridge.seconds),
    livekitCredential cfg.livekitUrl (channelOf cfg i) ("client-" ++ toString cfg.clientUid)
      (livekitToken crates.livekit (livekitArguments cfg i ("client-" ++ toString cfg.clientUid))
        rs.client.seconds))

/-- The credentials that two Agora tokens make. -/
def agoraCredentials (crates : Crates) (cfg : Config) (i : CreateInput) (rs : Readings) : Value × Value :=
  (agoraCredential cfg.agoraAppId (channelOf cfg i) cfg.bridgeUid
      (tokenOf crates.agora (rtcArguments cfg i cfg.bridgeUid .subscriber rs.bridge)),
    agoraCredential cfg.agoraAppId (channelOf cfg i) cfg.clientUid
      (tokenOf crates.agora (rtcArguments cfg i cfg.clientUid .audioPublisher rs.client)))

/-- **The credentials with LiveKit.** -/
theorem credentials_livekit (crates : Crates) (i : CreateInput) (rs : Readings)
    (hdemo : cfg.demoMode = false) (hlivekit : cfg.rtcProvider = "livekit") :
    (0 ≤ rs.client.clockMs ∧ 0 ≤ rs.bridge.clockMs ∧
        credentials cfg (i.issue crates rs) = .ok (livekitCredentials crates cfg i rs)) ∨
      ¬ (0 ≤ rs.client.clockMs ∧ 0 ≤ rs.bridge.clockMs) ∧
        credentials cfg (i.issue crates rs) = .error tokenGenerationFailed := by
  have hother : (cfg.rtcProvider == "livekit") = true := beq_iff_eq.mpr hlivekit
  have hfirst : startsWith ("client-" ++ toString cfg.clientUid) "client-" = true := by
    rw [startsWith, String.toList_append, List.isPrefixOf_iff_prefix]
    exact List.prefix_append _ _
  have hsecond : startsWith ("bridge-" ++ toString cfg.bridgeUid) "client-" = false := by
    rw [startsWith, String.toList_append]
    rfl
  simp only [credentials, CreateInput.issue, hdemo, hother, Bool.false_eq_true, if_false, if_true, hfirst,
    hsecond]
  rcases buildLivekitToken_cases crates.livekit rs.client.clockMs (livekitArguments cfg i
      ("client-" ++ toString cfg.clientUid)) with ⟨hclient, hok⟩ | ⟨hclient, e, he⟩
  · simp only [livekitArguments, channelOf] at hok
    simp only [hok]
    rcases buildLivekitToken_cases crates.livekit rs.bridge.clockMs (livekitArguments cfg i
        ("bridge-" ++ toString cfg.bridgeUid)) with ⟨hbridge, hok'⟩ | ⟨hbridge, e, he⟩
    · simp only [livekitArguments, channelOf] at hok'
      simp only [hok']
      exact Or.inl ⟨hclient, hbridge, rfl⟩
    · simp only [livekitArguments, channelOf] at he
      simp only [he]
      exact Or.inr ⟨fun hboth => absurd hboth.2 (by omega), trivial⟩
  · simp only [livekitArguments, channelOf] at he
    simp only [he]
    exact Or.inr ⟨fun hboth => absurd hboth.1 (by omega), trivial⟩

/-- **The credentials with Agora.** -/
theorem credentials_agora (crates : Crates) (rs : Readings) (h : cfg.Validated)
    (hdemo : cfg.demoMode = false) (hagora : cfg.rtcProvider = "agora")
    (huids : cfg.clientUid < 2 ^ 32 ∧ cfg.bridgeUid < 2 ^ 32) (hchannel : byteLen i.channel = 32) :
    (rs.client.InRange ∧ rs.bridge.InRange ∧
        credentials cfg (i.issue crates rs) = .ok (agoraCredentials crates cfg i rs)) ∨
      ¬ (rs.client.InRange ∧ rs.bridge.InRange) ∧
        credentials cfg (i.issue crates rs) = .error tokenGenerationFailed := by
  have hother : (cfg.rtcProvider == "livekit") = false := by
    rw [hagora]
    decide
  simp only [credentials, CreateInput.issue, hdemo, hother, Bool.false_eq_true, if_false, if_true,
    reduceCtorEq]
  by_cases hclient : rs.client.InRange
  · have hok := buildRtcToken_ok crates h hagora hchannel ⟨h.uids.1, huids.1⟩ .audioPublisher
      hclient
    simp only [channelOf] at hok
    simp only [hok]
    by_cases hbridge : rs.bridge.InRange
    · have hok' := buildRtcToken_ok crates h hagora hchannel ⟨h.uids.2.1, huids.2⟩ .subscriber
        hbridge
      simp only [channelOf] at hok'
      simp only [hok']
      exact Or.inl ⟨hclient, hbridge, rfl⟩
    · obtain ⟨e, he⟩ := buildRtcToken_error crates hbridge (UInt32.ofNat cfg.bridgeUid) .subscriber
        (UInt32.ofNat cfg.rtcTokenTtlSeconds) cfg.agoraAppId cfg.agoraAppCertificate
        (cfg.channelPrefix ++ "-" ++ i.channel)
      simp only [he]
      exact Or.inr ⟨fun hboth => hbridge hboth.2, trivial⟩
  · obtain ⟨e, he⟩ := buildRtcToken_error crates hclient (UInt32.ofNat cfg.clientUid)
      .audioPublisher (UInt32.ofNat cfg.rtcTokenTtlSeconds) cfg.agoraAppId cfg.agoraAppCertificate
      (cfg.channelPrefix ++ "-" ++ i.channel)
    simp only [he]
    exact Or.inr ⟨fun hboth => hclient hboth.1, trivial⟩

/-- Within the range of `u32` seconds both credentials are issued, with either provider. -/
theorem credentials_issue (crates : Crates) (h : cfg.Validated) (hdemo : cfg.demoMode = false)
    (huids : cfg.clientUid < 2 ^ 32 ∧ cfg.bridgeUid < 2 ^ 32) (hchannel : byteLen i.channel = 32)
    (hclient : rs.client.InRange) (hbridge : rs.bridge.InRange) :
    ∃ creds, credentials cfg (i.issue crates rs) = .ok creds := by
  rcases h.provider with hagora | hlivekit
  · rcases credentials_agora crates rs h hdemo hagora huids hchannel with ⟨-, -, hok⟩ | ⟨hnot, -⟩
    · exact ⟨_, hok⟩
    · exact absurd ⟨hclient, hbridge⟩ hnot
  · rcases credentials_livekit crates i rs hdemo hlivekit with ⟨-, -, hok⟩ | ⟨hnot, -⟩
    · exact ⟨_, hok⟩
    · exact absurd ⟨hclient.1, hbridge.1⟩ hnot

/-- Where credentials are issued, `create_session` does not end in an internal error. -/
theorem createSession_status {digest : String → String} {a : AppState} {creds : Value × Value}
    (h : credentials cfg i = .ok creds) : (createSession digest cfg i a).2.status ≠ 500 := by
  have hstart : ∀ owner (a : AppState), (startSession cfg i owner a).2.status ≠ 500 := by
    intro owner a
    unfold startSession
    rw [h]
    dsimp only
    cases hsend : a.toBridge (startEvent (newSession cfg i owner) creds.1) with
    | mk b sent => cases sent <;> simp [renderError, createdReply]
  unfold createSession
  split
  · simp [renderError]
  split
  · simp [renderError]
  split
  · simp [renderError]
  cases htake : takeOwner digest cfg i a with
  | mk b owner =>
    cases owner with
    | none => simp [renderError]
    | some owner => exact hstart owner b

/-! ## The grants -/

theorem agoraGrant_tokenOf {crypto : TokenCrypto} {a : RtcArguments} (h : a.Valid) :
    agoraGrant crypto (tokenOf crypto a) =
      some ⟨a.channel, true, a.role == .audioPublisher,
        a.issueTimestamp.toNat + a.expiresInSeconds.toNat⟩ := by
  simp only [agoraGrant, decodePayload_tokenOf, (reads_content _ h).whole, fieldsOf, ofBytes_asBytes,
    Option.bind_eq_bind, Option.bind_some]
  cases a.role <;> rfl

theorem livekitGrant_livekitToken {crypto : JwtCrypto} {a : LivekitArguments} {now : ℕ}
    (h : now + a.ttlSeconds.toNat < 2 ^ 64) :
    livekitGrant crypto (livekitToken crypto a now) =
      some ⟨a.room, true, a.canPublish, now + a.ttlSeconds.toNat⟩ := by
  have hexp : wrappingAdd now a.ttlSeconds.toNat = now + a.ttlSeconds.toNat := Nat.mod_eq_of_lt h
  simp only [livekitGrant, decodeClaims_livekitToken h, readGrant_claims, hexp, Option.bind_eq_bind,
    Option.bind_some]
  rfl

/-- A message that a credential is put into. -/
def Bare (message : Value) : Prop :=
  ∃ fields, message = .object fields ∧ fields.lookup "agora" = none ∧ fields.lookup "livekit" = none

theorem grantOf_agora {message : Value} (h : Bare message) (appId channel : String) (uid : ℕ)
    (token : String) :
    grantOf crates (message.extend (agoraCredential appId channel uid token)) =
      agoraGrant crates.agora token := by
  obtain ⟨fields, rfl, -, hlivekit⟩ := h
  simp [grantOf, agoraCredential, Value.extend, Value.json, Value.setField, Value.lookup_setField, hlivekit,
    Value.strField, Value.asStr]

theorem grantOf_livekit {message : Value} (h : Bare message) (url room identity token : String) :
    grantOf crates (message.extend (livekitCredential url room identity token)) =
      livekitGrant crates.livekit token := by
  obtain ⟨fields, rfl, -, -⟩ := h
  simp [grantOf, livekitCredential, Value.extend, Value.json, Value.setField, Value.lookup_setField,
    Value.strField, Value.asStr]

theorem bare_startEvent (s : Session) : Bare (sessionMessage "session.start" s.id) :=
  ⟨_, rfl, by simp [Value.lookup_setField], by simp [Value.lookup_setField]⟩

/-- The reply of `create_session` before the credential is put in. -/
theorem bare_createdReply (s : Session) :
    Bare (Value.json [("sessionId", .string s.id), ("state", .string s.state.toText),
      ("expiresAtMs", .number (.unsigned s.expiresAtMs)),
      ("eventsWsPath", .string ("/ws/client/" ++ s.id)), ("demoMode", .bool cfg.demoMode),
      ("rtcProvider", .string cfg.rtcProvider)]) :=
  ⟨_, rfl, by simp [Value.lookup_setField], by simp [Value.lookup_setField]⟩

/-- **The grants of the two credentials**, read out of the message to the bridge and of the reply to the
client: they are for one channel, and end a token's lifetime after the second they were issued in. -/
theorem grants_issue (h : cfg.Validated) (hdemo : cfg.demoMode = false)
    (huids : cfg.clientUid < 2 ^ 32 ∧ cfg.bridgeUid < 2 ^ 32) (hchannel : byteLen i.channel = 32)
    (hclient : rs.client.Fits) (hbridge : rs.bridge.Fits) {creds : Value × Value}
    (hcreds : credentials cfg (i.issue crates rs) = .ok creds) (s s' : Session) :
    grantOf crates (startEvent s creds.1) =
        some ⟨channelOf cfg i, true, cfg.rtcProvider == "livekit",
          rs.bridge.seconds + cfg.rtcTokenTtlSeconds⟩ ∧
      grantOf crates (createdReply cfg s' creds.2).body =
        some ⟨channelOf cfg i, true, true, rs.client.seconds + cfg.rtcTokenTtlSeconds⟩ := by
  have httl := h.tokenTtl
  have hnat : (UInt32.ofNat cfg.rtcTokenTtlSeconds).toNat = cfg.rtcTokenTtlSeconds := by
    rw [UInt32.toNat_ofNat']
    omega
  rcases h.provider with hagora | hlivekit
  · rcases credentials_agora crates rs h hdemo hagora huids hchannel with
      ⟨hc, hb, hissue⟩ | ⟨-, herr⟩
    swap
    · exact absurd (hcreds.symm.trans herr) (by simp)
    obtain rfl := Except.ok.inj (hcreds.symm.trans hissue)
    have hseconds : ∀ {r : Reading}, r.InRange → (UInt32.ofNat r.seconds).toNat = r.seconds := by
      intro r hr
      rw [UInt32.toNat_ofNat']
      exact Nat.mod_eq_of_lt (seconds_lt hr)
    have hgrant : ∀ uid role (r : Reading), r.InRange → uid ≠ 0 ∧ uid < 2 ^ 32 →
        agoraGrant crates.agora (tokenOf crates.agora (rtcArguments cfg i uid role r)) =
          some ⟨channelOf cfg i, true, role == .audioPublisher, r.seconds + cfg.rtcTokenTtlSeconds⟩ := by
      intro uid role r hr huid
      rw [agoraGrant_tokenOf (rtcArguments_valid h hagora hchannel huid role r)]
      change some (⟨channelOf cfg i, true, role == .audioPublisher, (UInt32.ofNat r.seconds).toNat +
        (UInt32.ofNat cfg.rtcTokenTtlSeconds).toNat⟩ : RtcGrant) = _
      rw [hseconds hr, hnat]
    constructor
    · rw [startEvent, agoraCredentials, grantOf_agora (bare_startEvent s),
        hgrant _ _ _ hb ⟨h.uids.2.1, huids.2⟩, hagora]
      rfl
    · rw [createdReply, agoraCredentials, grantOf_agora (bare_createdReply s'),
        hgrant _ _ _ hc ⟨h.uids.1, huids.1⟩]
      rfl
  · rcases credentials_livekit crates i rs hdemo hlivekit with
      ⟨hc, hb, hissue⟩ | ⟨-, herr⟩
    swap
    · exact absurd (hcreds.symm.trans herr) (by simp)
    obtain rfl := Except.ok.inj (hcreds.symm.trans hissue)
    have hgrant : ∀ identity (r : Reading), r.Fits →
        livekitGrant crates.livekit (livekitToken crates.livekit (livekitArguments cfg i identity) r.seconds) =
          some ⟨channelOf cfg i, true, true, r.seconds + cfg.rtcTokenTtlSeconds⟩ := by
      intro identity r hr
      have harg : (livekitArguments cfg i identity).ttlSeconds.toNat = cfg.rtcTokenTtlSeconds := hnat
      have hfits : r.seconds + (livekitArguments cfg i identity).ttlSeconds.toNat < 2 ^ 64 := by
        unfold Reading.Fits at hr
        rw [harg, Reading.seconds]
        omega
      rw [livekitGrant_livekitToken hfits, harg]
      rfl
    constructor
    · rw [startEvent, livekitCredentials, grantOf_livekit (bare_startEvent s), hgrant _ _ hbridge, hlivekit]
      rfl
    · rw [createdReply, livekitCredentials, grantOf_livekit (bare_createdReply s'), hgrant _ _ hclient]

/-- The byte strings that `build_rtc_token_at` packs behind their lengths. -/
def packedFields (crypto : TokenCrypto) (a : RtcArguments) : List Bytes :=
  [signature crypto a, asBytes a.appId, asBytes a.channel, asBytes (toString a.uid.toNat)]

theorem packedFields_length {crypto : TokenCrypto} {a : RtcArguments} (h : a.Valid) :
    ∀ f ∈ packedFields crypto a, f.length < 65536 := by
  have happ := h.appId.1
  have hchannel := h.channel.2
  have huid := byteLen_uid a.uid
  intro f hf
  simp only [packedFields, List.mem_cons, List.not_mem_nil, or_false] at hf
  rcases hf with rfl | rfl | rfl | rfl
  · rw [length_signature]
    omega
  all_goals
    rw [length_asBytes]
    omega

end Issue

/-! ## Functions with the laws of the crates -/

theorem toNat_ofNat_byte (b : UInt8) : (Char.ofNat (256 + b.toNat)).toNat = 256 + b.toNat := by
  have hlt := b.toNat_lt
  have hvalid : (256 + b.toNat).isValidChar := Or.inl (by omega)
  rw [Char.ofNat, dif_pos hvalid]
  rfl

/-- Bytes as characters from 256 on. -/
def plainText : Lossless Bytes String where
  encode bytes := String.ofList (bytes.map fun b => Char.ofNat (256 + b.toNat))
  decode s := some (s.toList.map fun c => UInt8.ofNat (c.toNat - 256))
  decode_encode bytes := by
    have hone : ∀ b : UInt8, UInt8.ofNat ((Char.ofNat (256 + b.toNat)).toNat - 256) = b := by
      intro b
      rw [toNat_ofNat_byte, Nat.add_sub_cancel_left, UInt8.ofNat_toNat]
    rw [String.toList_ofList, List.map_map]
    exact congrArg some ((List.map_congr_left fun b _ => hone b).trans (List.map_id bytes))

instance : Inhabited Crates where
  default :=
    { agora := ⟨fun _ _ => Vector.replicate 32 0, ⟨id, some, fun _ => rfl⟩, plainText⟩
      livekit :=
        { hmac := fun _ _ => Vector.replicate 32 0
          base64url := plainText
          noDot := by
            intro bytes hdot
            obtain ⟨b, -, hb⟩ := List.mem_map.mp (by simpa [plainText] using hdot)
            have hnat := congrArg Char.toNat hb
            have hdotNat : '.'.toNat = 46 := rfl
            rw [toNat_ofNat_byte, hdotNat] at hnat
            omega
          ryu :=
            { spell := fun _ => JsonText.spellNumeral false 0 [] none
              numeral := fun _ => some (JsonText.numeralOf false 0 [] none)
              plain := fun _ => JsonText.spellNumeral_plain _ _ _ _
              reads := fun _ _ hrest => JsonText.readNumeral_integer false 0 hrest } } }

/-! ## The two results about admission -/

/-- **A validated configuration cannot fail at admission.** Every call of a token builder succeeds, no byte
string is too long for the length before it, and `create_session` never answers with an internal error. -/
theorem admission_cannot_fail (crates : Crates) {cfg : Config} (h : cfg.validate = .ok ())
    (hdemo : cfg.demoMode = false) (huids : cfg.clientUid < 2 ^ 32 ∧ cfg.bridgeUid < 2 ^ 32)
    {i : CreateInput} (hchannel : byteLen i.channel = 32) {rs : Readings} (hclient : rs.client.InRange)
    (hbridge : rs.bridge.InRange) :
    (cfg.rtcProvider ≠ "livekit" → ∀ call ∈
        [(cfg.clientUid, RtcRole.audioPublisher, rs.client), (cfg.bridgeUid, .subscriber, rs.bridge)],
      (∃ token, (i.issue crates rs).rtc cfg.agoraAppId cfg.agoraAppCertificate (channelOf cfg i) call.1
          call.2.1 cfg.rtcTokenTtlSeconds = .ok token) ∧
        ∀ f ∈ packedFields crates.agora (rtcArguments cfg i call.1 call.2.1 call.2.2), f.length < 65536) ∧
      (∀ identity ∈ ["client-" ++ toString cfg.clientUid, "bridge-" ++ toString cfg.bridgeUid],
        ∃ token, (i.issue crates rs).livekit cfg.livekitApiKey cfg.livekitApiSecret identity
          (channelOf cfg i) true cfg.rtcTokenTtlSeconds = .ok token) ∧
      ∀ digest a, (createSession digest cfg (i.issue crates rs) a).2.status ≠ 500 := by
  have hv := validate_ok h hdemo
  refine ⟨fun hprovider call hcall => ?_, fun identity _ => ?_, fun digest a => ?_⟩
  · have hagora : cfg.rtcProvider = "agora" := hv.provider.resolve_right hprovider
    simp only [List.mem_cons, List.not_mem_nil, or_false] at hcall
    rcases hcall with rfl | rfl
    · exact ⟨⟨_, buildRtcToken_ok crates hv hagora hchannel ⟨hv.uids.1, huids.1⟩ .audioPublisher hclient⟩,
        packedFields_length (rtcArguments_valid hv hagora hchannel ⟨hv.uids.1, huids.1⟩ _ _)⟩
    · exact ⟨⟨_, buildRtcToken_ok crates hv hagora hchannel ⟨hv.uids.2.1, huids.2⟩ .subscriber hbridge⟩,
        packedFields_length (rtcArguments_valid hv hagora hchannel ⟨hv.uids.2.1, huids.2⟩ _ _)⟩
  · change ∃ token, buildLivekitToken crates.livekit
      (if startsWith identity "client-" then rs.client else rs.bridge).clockMs _ = .ok token
    split
    · exact ⟨_, buildLivekitToken_ok _ hclient.1⟩
    · exact ⟨_, buildLivekitToken_ok _ hbridge.1⟩
  · obtain ⟨creds, hissue⟩ := credentials_issue crates hv hdemo huids hchannel hclient hbridge
    exact createSession_status hissue

/-- A production configuration for Agora, with the credentials of the tests. -/
def agoraProductionConfig : Config :=
  { livekitProductionConfig with
    rtcProvider := "agora"
    agoraAppId := "970CA35de60c44645bbae8a215061b33"
    agoraAppCertificate := "5CFd2fd1755d40ecb72977518be15d3b" }

/-- An operator's request, with a channel's 32 digits. -/
def operatorCreate : CreateInput :=
  { browserCreate "grant" "first" 0 (.ok "") with channel := "7d72365eb983485397e3e3f9d460bdda" }

/-- The clock at the first call, and a second later. -/
def readingsNow : Readings := ⟨⟨1763600000999, 7⟩, ⟨1763600001003, 8⟩⟩

theorem agoraProductionConfig_valid : agoraProductionConfig.validate = .ok () := by decide +kernel

theorem operatorCreate_channel : byteLen operatorCreate.channel = 32 := by decide +kernel

theorem readingsNow_inRange : readingsNow.client.InRange ∧ readingsNow.bridge.InRange := by
  unfold Reading.InRange
  decide

theorem readingsNow_fit : readingsNow.client.Fits ∧ readingsNow.bridge.Fits := by
  unfold Reading.Fits
  decide

theorem admission_cannot_fail_agora :
    agoraProductionConfig.validate = .ok () ∧ ∀ (crates : Crates) (digest : String → String) (a : AppState),
      (createSession digest agoraProductionConfig (operatorCreate.issue crates readingsNow) a).2.status
        ≠ 500 :=
  ⟨agoraProductionConfig_valid, fun crates digest a =>
    (admission_cannot_fail crates agoraProductionConfig_valid rfl (by decide) operatorCreate_channel
      readingsNow_inRange.1 readingsNow_inRange.2).2.2 digest a⟩

/-- **The bridge's credential lets it publish audio exactly with LiveKit.** With either provider the two
credentials are for one channel and let their holders join it; an Agora token for the bridge is a
subscriber's. -/
theorem bridge_may_publish_iff (crates : Crates) {cfg : Config} (h : cfg.validate = .ok ())
    (hdemo : cfg.demoMode = false) (huids : cfg.clientUid < 2 ^ 32 ∧ cfg.bridgeUid < 2 ^ 32)
    {i : CreateInput} (hchannel : byteLen i.channel = 32) {rs : Readings} (hclient : rs.client.Fits)
    (hbridge : rs.bridge.Fits) {creds : Value × Value}
    (hcreds : credentials cfg (i.issue crates rs) = .ok creds) (owner : Option BrowserGrant) :
    (∃ bridge client,
        grantOf crates (startEvent (newSession cfg i owner) creds.1) = some bridge ∧
        grantOf crates (createdReply cfg (newSession cfg i owner) creds.2).body = some client ∧
        bridge.channel = client.channel ∧ bridge.join = true ∧ bridge.publishAudio = true) ↔
      cfg.rtcProvider = "livekit" := by
  obtain ⟨hstart, hreply⟩ := grants_issue (validate_ok h hdemo) hdemo huids hchannel hclient hbridge hcreds
    (newSession cfg i owner) (newSession cfg i owner)
  rw [hstart, hreply]
  constructor
  · rintro ⟨bridge, client, hb, -, -, -, hpublish⟩
    obtain rfl := Option.some.inj hb
    exact beq_iff_eq.mp hpublish
  · intro hprovider
    exact ⟨_, _, rfl, rfl, rfl, rfl, beq_iff_eq.mpr hprovider⟩

theorem bridge_may_publish_livekit :
    livekitProductionConfig.validate = .ok () ∧ ∀ crates : Crates, ∃ creds,
      credentials livekitProductionConfig (operatorCreate.issue crates readingsNow) = .ok creds ∧
      ∃ bridge client,
        grantOf crates (startEvent (newSession livekitProductionConfig operatorCreate none) creds.1) =
            some bridge ∧
          grantOf crates (createdReply livekitProductionConfig
            (newSession livekitProductionConfig operatorCreate none) creds.2).body = some client ∧
          bridge.channel = client.channel ∧ bridge.join = true ∧ bridge.publishAudio = true := by
  have hvalid : livekitProductionConfig.validate = .ok () := by decide +kernel
  refine ⟨hvalid, fun crates => ?_⟩
  obtain ⟨creds, hcreds⟩ := credentials_issue crates (validate_ok hvalid rfl) rfl (by decide)
    operatorCreate_channel readingsNow_inRange.1 readingsNow_inRange.2
  exact ⟨creds, hcreds, (bridge_may_publish_iff crates hvalid rfl (by decide) operatorCreate_channel
    readingsNow_fit.1 readingsNow_fit.2 hcreds none).mpr rfl⟩

/-- With Agora the bridge gets a credential that lets it join the client's channel, and not publish. -/
theorem agora_bridge_may_not_publish :
    agoraProductionConfig.validate = .ok () ∧ agoraProductionConfig.demoMode = false ∧
      ∀ crates : Crates, ∃ creds,
        credentials agoraProductionConfig (operatorCreate.issue crates readingsNow) = .ok creds ∧
        grantOf crates (startEvent (newSession agoraProductionConfig operatorCreate none) creds.1) =
          some ⟨"test-7d72365eb983485397e3e3f9d460bdda", true, false, 1763601201⟩ ∧
        grantOf crates (createdReply agoraProductionConfig
          (newSession agoraProductionConfig operatorCreate none) creds.2).body =
          some ⟨"test-7d72365eb983485397e3e3f9d460bdda", true, true, 1763601200⟩ := by
  have hv := validate_ok agoraProductionConfig_valid rfl
  refine ⟨agoraProductionConfig_valid, rfl, fun crates => ?_⟩
  obtain ⟨creds, hcreds⟩ := credentials_issue crates hv rfl (by decide) operatorCreate_channel
    readingsNow_inRange.1 readingsNow_inRange.2
  exact ⟨creds, hcreds, grants_issue hv rfl (by decide) operatorCreate_channel readingsNow_fit.1
    readingsNow_fit.2 hcreds _ _⟩

end SenseVoice.ControlPlane
