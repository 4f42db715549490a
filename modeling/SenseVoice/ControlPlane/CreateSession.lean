import SenseVoice.ControlPlane.Auth

/-!
# `create_session`

Model of `create_session` in the source's order: authorisation, bridge, capacity, grant, credentials,
send, insert. The whole handler after the authorisation is one critical section, so it is one
function of the state.

`build_rtc_token` and `build_livekit_token` are the functions `rtc` and `livekit` of the input, with
the arguments the source passes; either may fail. The handler reads the clock twice (`grantNow` when
it redeems the grant, `now` when it stamps the session) and draws three UUIDs.

The exits of the handler are `createSession_cases` in `Steps.lean`.
-/

namespace SenseVoice.ControlPlane

open Lib Text

/-- `RtcRole`. -/
inductive RtcRole where
  | audioPublisher
  | subscriber
deriving DecidableEq

/-- What `create_session` reads besides the state: the request, its two clock readings, the UUIDs it
draws (`channel` in the `simple` form) and the token builders. -/
structure CreateInput where
  req : Request
  grantNow : Nat
  now : Nat
  id : Uuid
  channel : Uuid
  ticket : Uuid
  rtc : (appId certificate channel : String) → (uid : Nat) → RtcRole → (ttl : Nat) →
    Except String String
  livekit : (apiKey apiSecret identity room : String) → (canPublish : Bool) → (ttl : Nat) →
    Except String String

/-- The reply of every failed token builder. -/
def tokenGenerationFailed : Reply :=
  renderError 500 "token_generation_failed" "Could not issue RTC credentials"

/-- The `agora` fragment. -/
def agoraCredential (appId channel : String) (uid : Nat) (token : String) : Value :=
  .json [("agora", .json [("appId", .string appId), ("channel", .string channel),
    ("uid", .number (.unsigned uid)), ("token", .string token)])]

/-- The `livekit` fragment. -/
def livekitCredential (url room identity token : String) : Value :=
  .json [("livekit", .json [("url", .string url), ("room", .string room),
    ("identity", .string identity), ("token", .string token)])]

/-- The credentials for the bridge and for the client, or the error reply. -/
def credentials (cfg : Config) (i : CreateInput) : Except Reply (Value × Value) :=
  let channel := cfg.channelPrefix ++ "-" ++ i.channel
  if cfg.demoMode then
    .ok (agoraCredential "" channel cfg.bridgeUid "", agoraCredential "" channel cfg.clientUid "")
  else if cfg.rtcProvider == "livekit" then
    let clientIdentity := "client-" ++ toString cfg.clientUid
    let bridgeIdentity := "bridge-" ++ toString cfg.bridgeUid
    let build := fun identity =>
      i.livekit cfg.livekitApiKey cfg.livekitApiSecret identity channel true cfg.rtcTokenTtlSeconds
    match build clientIdentity with
    | .error _ => .error tokenGenerationFailed
    | .ok clientToken =>
      match build bridgeIdentity with
      | .error _ => .error tokenGenerationFailed
      | .ok bridgeToken =>
        .ok (livekitCredential cfg.livekitUrl channel bridgeIdentity bridgeToken,
          livekitCredential cfg.livekitUrl channel clientIdentity clientToken)
  else
    let build := fun uid role =>
      i.rtc cfg.agoraAppId cfg.agoraAppCertificate channel uid role cfg.rtcTokenTtlSeconds
    match build cfg.clientUid .audioPublisher with
    | .error _ => .error tokenGenerationFailed
    | .ok client =>
      match build cfg.bridgeUid .subscriber with
      | .error _ => .error tokenGenerationFailed
      | .ok bridge =>
        .ok (agoraCredential cfg.agoraAppId channel cfg.bridgeUid bridge,
          agoraCredential cfg.agoraAppId channel cfg.clientUid client)

/-- `session_cookie` and `session_api_cookie`, for the given name and path prefix. -/
def sessionCookie (cfg : Config) (s : Session) (name pathPrefix : String) : Cookie :=
  { name := name
    value := s.ticket
    path := pathPrefix ++ s.id
    httpOnly := true
    secure := startsWith cfg.publicBaseUrl "https://"
    sameSiteStrict := true
    maxAgeSeconds := cfg.sessionTtlSeconds }

/-- The session `create_session` inserts. -/
def newSession (cfg : Config) (i : CreateInput) (owner : Option BrowserGrant) : Session :=
  { id := i.id
    ticket := i.ticket
    state := .starting
    expiresAtMs := wrappingAdd i.now (cfg.sessionTtlSeconds * 1000)
    ownerSubject := owner.map (·.subject)
    ownerProfileId := owner.map (·.profileId) }

/-- The `session.start` message. -/
def startEvent (s : Session) (bridgeCred : Value) : Value :=
  (sessionMessage "session.start" s.id).extend bridgeCred

/-- The reply on success. -/
def createdReply (cfg : Config) (s : Session) (clientCred : Value) : Reply :=
  { status := 201
    body := (Value.json [("sessionId", .string s.id), ("state", .string s.state.toText),
      ("expiresAtMs", .number (.unsigned s.expiresAtMs)),
      ("eventsWsPath", .string ("/ws/client/" ++ s.id)), ("demoMode", .bool cfg.demoMode),
      ("rtcProvider", .string cfg.rtcProvider)]).extend clientCred
    cookies := [sessionCookie cfg s "asr_session" "/ws/client/",
      sessionCookie cfg s "asr_session_api" "/api/v1/sessions/"] }

section Digest

variable (digest : String → String)

/-- The owner of the session, or `none` when the presented grant is not accepted: an operator's
session has no owner, and a presented grant is consumed. -/
def takeOwner (cfg : Config) (i : CreateInput) (a : AppState) :
    AppState × Option (Option BrowserGrant) :=
  if clientAuthorized i.req cfg then (a, some none)
  else
    match bearerToken i.req with
    | none => (a, none)
    | some token =>
      let r := consumeBrowserGrant digest a.inner token i.grantNow
      ({ a with inner := r.1 }, r.2.map some)

/-- The end of `create_session`: build the credentials, send `session.start`, insert the session. -/
def startSession (cfg : Config) (i : CreateInput) (owner : Option BrowserGrant) (a : AppState) :
    AppState × Reply :=
  match credentials cfg i with
  | .error reply => (a, reply)
  | .ok (bridgeCred, clientCred) =>
    let session := newSession cfg i owner
    match a.toBridge (startEvent session bridgeCred) with
    | (a, false) =>
      ({ a with inner := { a.inner with bridge := none } },
        renderError 503 "bridge_offline" "The LAN bridge disconnected while starting the session")
    | (a, true) =>
      ({ a with inner := { a.inner with sessions := a.inner.sessions.insert i.id session } },
        createdReply cfg session clientCred)

/-- `create_session`. -/
def createSession (cfg : Config) (i : CreateInput) (a : AppState) : AppState × Reply :=
  if !clientAuthorized i.req cfg && (bearerToken i.req).isNone then
    (a, renderError 401 "unauthorized" "A valid browser grant is required")
  else if a.inner.bridge.isNone then
    (a, renderError 503 "bridge_offline" "The LAN bridge is not connected")
  else if a.activeSessions ≥ cfg.sessionCapacity then
    (a, renderError 409 "session_busy" "The ASR service is at its configured session capacity")
  else
    match takeOwner digest cfg i a with
    | (a, none) =>
      (a, renderError 401 "invalid_browser_grant"
        "The browser grant is invalid, expired, or already used")
    | (a, some owner) => startSession cfg i owner a

end Digest

end SenseVoice.ControlPlane
