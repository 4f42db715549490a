import SenseVoice.Text

/-!
# The control plane's configuration (`Config`)

`Config` with the fields the handlers and `Config::validate` read (`bind_addr` and `static_dir` only
reach the HTTP server and are left out), `secret_matches`, and `Config::validate` with its checks in
the source's order, each with its message. `rtc_provider` stays a string: `validate` compares it with
the two known names and `create_session` with one of them.

Results: `secretMatches_iff` (the constant-time comparison decides equality), `validate_ok` (what a
configuration that `validate` accepts has).
-/

namespace SenseVoice.ControlPlane

open Text

/-- `Config`. -/
structure Config where
  publicBaseUrl : String
  allowedOrigin : Option String
  rtcProvider : String
  agoraAppId : String
  agoraAppCertificate : String
  livekitUrl : String
  livekitApiKey : String
  livekitApiSecret : String
  channelPrefix : String
  clientUid : Nat
  bridgeUid : Nat
  rtcTokenTtlSeconds : Nat
  clientAccessToken : String
  octosServiceToken : String
  browserGrantTtlSeconds : Nat
  bridgeSharedSecret : String
  sessionTtlSeconds : Nat
  sessionCapacity : Nat
  demoMode : Bool

/-- `secret_matches`: equal lengths, then `ct_eq` of the bytes, which decides equality. -/
def secretMatches (expected supplied : String) : Bool :=
  byteLen expected == byteLen supplied && expected == supplied

theorem secretMatches_iff {a b : String} : secretMatches a b = true ↔ a = b := by
  unfold secretMatches
  rw [Bool.and_eq_true, beq_iff_eq, beq_iff_eq]
  exact ⟨And.right, fun h => ⟨congrArg byteLen h, h⟩⟩

/-- `validate_credential` (`agora_token.rs`). -/
def validateCredential (name value : String) : Except String Unit :=
  if byteLen value != 32 || !isHex value then
    .error (name ++ " must be a 32-character hexadecimal value")
  else .ok ()

/-- `validate_livekit_url` (`livekit_token.rs`). -/
def validateLivekitUrl (value : String) : Except String Unit :=
  if !(startsWith value "wss://" || startsWith value "ws://") then
    .error "LIVEKIT_URL must start with wss:// or ws://"
  else if byteLen (trimEndMatches value '/') < 10 then
    .error "LIVEKIT_URL must include a host"
  else .ok ()

/-- One check of `validate`: an error with the given text when `bad` holds. -/
def reject (bad : Bool) (message : String) : Except String Unit :=
  if bad then .error message else .ok ()

/-- The credentials `validate` asks for when `DEMO_MODE=false`. -/
def validateProvider (cfg : Config) : Except String Unit :=
  if cfg.rtcProvider == "agora" then do
    validateCredential "AGORA_APP_ID" cfg.agoraAppId
    validateCredential "AGORA_APP_CERTIFICATE" cfg.agoraAppCertificate
  else do
    validateLivekitUrl cfg.livekitUrl
    reject (!startsWith cfg.livekitUrl "wss://") "LIVEKIT_URL must use wss:// when DEMO_MODE=false"
    reject (byteLen cfg.livekitApiKey < 8) "LIVEKIT_API_KEY must contain at least 8 characters"
    reject (byteLen cfg.livekitApiSecret < 16)
      "LIVEKIT_API_SECRET must contain at least 16 characters"

/-- The checks `validate` makes only when `DEMO_MODE=false`. -/
def validateProduction (cfg : Config) : Except String Unit := do
  validateProvider cfg
  reject (byteLen cfg.clientAccessToken < 24)
    "CLIENT_ACCESS_TOKEN must contain at least 24 characters when DEMO_MODE=false"
  reject (byteLen cfg.bridgeSharedSecret < 24)
    "BRIDGE_SHARED_SECRET must contain at least 24 characters when DEMO_MODE=false"
  reject (secretMatches cfg.clientAccessToken cfg.bridgeSharedSecret)
    "CLIENT_ACCESS_TOKEN and BRIDGE_SHARED_SECRET must be different"
  reject (!startsWith cfg.publicBaseUrl "https://")
    "PUBLIC_BASE_URL must use HTTPS when DEMO_MODE=false"
  reject (cfg.allowedOrigin != some cfg.publicBaseUrl)
    "ALLOWED_ORIGIN must exactly match PUBLIC_BASE_URL when DEMO_MODE=false"

/-- The checks on `OCTOS_SERVICE_TOKEN`, made only when it is set. -/
def validateOctos (cfg : Config) : Except String Unit :=
  if cfg.octosServiceToken.isEmpty then .ok ()
  else do
    reject (byteLen cfg.octosServiceToken < 24)
      "OCTOS_SERVICE_TOKEN must contain at least 24 characters"
    reject (secretMatches cfg.octosServiceToken cfg.bridgeSharedSecret ||
        (!cfg.clientAccessToken.isEmpty &&
          secretMatches cfg.octosServiceToken cfg.clientAccessToken))
      "OCTOS_SERVICE_TOKEN must be different from all other service secrets"

/-- `Config::validate`. -/
def Config.validate (cfg : Config) : Except String Unit := do
  reject (byteLen cfg.bridgeSharedSecret < 16)
    "BRIDGE_SHARED_SECRET must contain at least 16 characters"
  reject (cfg.sessionTtlSeconds == 0 || cfg.sessionTtlSeconds > 3600)
    "SESSION_TTL_SECONDS must be between 1 and 3600"
  reject (cfg.sessionCapacity == 0 || cfg.sessionCapacity > 1000)
    "SESSION_CAPACITY must be between 1 and 1000"
  reject (!(10 ≤ cfg.browserGrantTtlSeconds && cfg.browserGrantTtlSeconds ≤ 300))
    "BROWSER_GRANT_TTL_SECONDS must be between 10 and 300"
  validateOctos cfg
  reject (cfg.rtcTokenTtlSeconds > 86400 || cfg.rtcTokenTtlSeconds < cfg.sessionTtlSeconds + 60)
    "RTC_TOKEN_TTL_SECONDS must cover SESSION_TTL_SECONDS plus 60 seconds and not exceed 86400"
  reject (cfg.channelPrefix.isEmpty || byteLen cfg.channelPrefix > 24 ||
      !isToken cfg.channelPrefix)
    "RTC_CHANNEL_PREFIX must contain 1-24 ASCII letters, digits, '-' or '_'"
  reject (cfg.rtcProvider != "agora" && cfg.rtcProvider != "livekit")
    "RTC_PROVIDER must be \"agora\" or \"livekit\""
  if cfg.demoMode then .ok () else validateProduction cfg
  reject (cfg.clientUid == 0 || cfg.bridgeUid == 0)
    "RTC_CLIENT_UID and RTC_BRIDGE_UID must be non-zero"
  reject (cfg.clientUid == cfg.bridgeUid) "RTC_CLIENT_UID and RTC_BRIDGE_UID must be different"

/-! ## What `validate` accepts -/

theorem reject_ok {bad : Bool} {message : String} : reject bad message = .ok () ↔ bad = false := by
  cases bad <;> simp [reject]

/-- Checks one after the other pass if both do. -/
theorem bind_ok {x y : Except String Unit} : (x >>= fun _ => y) = .ok () ↔ x = .ok () ∧ y = .ok () := by
  cases x <;> simp [bind, Except.bind]

theorem validateCredential_eq (name value : String) :
    validateCredential name value =
      if byteLen value = 32 ∧ isHex value = true then .ok ()
      else .error (name ++ " must be a 32-character hexadecimal value") := by
  unfold validateCredential
  by_cases hlen : byteLen value = 32 <;> cases hhex : isHex value <;> simp [hlen]

theorem validateCredential_ok {name value : String} :
    validateCredential name value = .ok () ↔ byteLen value = 32 ∧ isHex value = true := by
  rw [validateCredential_eq]
  by_cases h : byteLen value = 32 ∧ isHex value = true
  · simp [h]
  · simp [h]

/-- What the token builders rely on in a configuration that was accepted with `DEMO_MODE=false`. -/
structure Config.Validated (cfg : Config) : Prop where
  sessionTtl : 1 ≤ cfg.sessionTtlSeconds ∧ cfg.sessionTtlSeconds ≤ 3600
  tokenTtl : cfg.sessionTtlSeconds + 60 ≤ cfg.rtcTokenTtlSeconds ∧ cfg.rtcTokenTtlSeconds ≤ 86400
  channelPrefix : byteLen cfg.channelPrefix ≤ 24
  provider : cfg.rtcProvider = "agora" ∨ cfg.rtcProvider = "livekit"
  credentials : cfg.rtcProvider = "agora" →
    (byteLen cfg.agoraAppId = 32 ∧ isHex cfg.agoraAppId = true) ∧
      byteLen cfg.agoraAppCertificate = 32 ∧ isHex cfg.agoraAppCertificate = true
  uids : cfg.clientUid ≠ 0 ∧ cfg.bridgeUid ≠ 0 ∧ cfg.clientUid ≠ cfg.bridgeUid

theorem validateProvider_ok {cfg : Config} (h : validateProvider cfg = .ok ())
    (hagora : cfg.rtcProvider = "agora") :
    (byteLen cfg.agoraAppId = 32 ∧ isHex cfg.agoraAppId = true) ∧
      byteLen cfg.agoraAppCertificate = 32 ∧ isHex cfg.agoraAppCertificate = true := by
  unfold validateProvider at h
  rw [if_pos (beq_iff_eq.mpr hagora), bind_ok, validateCredential_ok, validateCredential_ok] at h
  exact h

theorem validate_ok {cfg : Config} (h : cfg.validate = .ok ()) (hdemo : cfg.demoMode = false) :
    cfg.Validated := by
  unfold Config.validate at h
  simp only [bind_ok, reject_ok, hdemo, Bool.false_eq_true, if_false] at h
  obtain ⟨-, hsession, -, -, -, htoken, hprefix, hprovider, hproduction, huids, hdistinct⟩ := h
  simp only [Bool.or_eq_false_iff, beq_eq_false_iff_ne, decide_eq_false_iff_not, Nat.not_lt, ne_eq,
    gt_iff_lt]
    at hsession htoken hprefix huids hdistinct
  have hknown : cfg.rtcProvider = "agora" ∨ cfg.rtcProvider = "livekit" := by
    by_cases hagora : cfg.rtcProvider = "agora"
    · exact Or.inl hagora
    · simpa [hagora] using hprovider
  unfold validateProduction at hproduction
  rw [bind_ok] at hproduction
  exact ⟨by omega, by omega, hprefix.1.2, hknown, validateProvider_ok hproduction.1,
    huids.1, huids.2, hdistinct⟩

/-- `base_config` of the tests. -/
def baseConfig : Config where
  publicBaseUrl := "http://localhost"
  allowedOrigin := none
  rtcProvider := "agora"
  agoraAppId := ""
  agoraAppCertificate := ""
  livekitUrl := ""
  livekitApiKey := ""
  livekitApiSecret := ""
  channelPrefix := "test"
  clientUid := 1001
  bridgeUid := 9001
  rtcTokenTtlSeconds := 1200
  clientAccessToken := ""
  octosServiceToken := ""
  browserGrantTtlSeconds := 60
  bridgeSharedSecret := "0123456789abcdef"
  sessionTtlSeconds := 900
  sessionCapacity := 1
  demoMode := true

/-- `livekit_production_config` of the tests. -/
def livekitProductionConfig : Config :=
  { baseConfig with
    demoMode := false
    rtcProvider := "livekit"
    publicBaseUrl := "https://asr.example.com"
    allowedOrigin := some "https://asr.example.com"
    clientAccessToken := "client-access-token-at-least-24"
    bridgeSharedSecret := "bridge-secret-at-least-24-characters"
    livekitUrl := "wss://rtc.example.com:9443"
    livekitApiKey := "APIkey12345"
    livekitApiSecret := "livekit-secret-32-characters!!" }

example : baseConfig.validate.toBool = true ∧ livekitProductionConfig.validate.toBool = true := by
  decide +kernel

end SenseVoice.ControlPlane
