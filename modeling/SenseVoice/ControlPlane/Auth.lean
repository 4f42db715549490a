import SenseVoice.ControlPlane.State

/-!
# Who may do what: bearer tokens, session tickets, browser grants

Model of `bearer_token`, `client_authorized`, `require_octos_service_access`, `session_authorized`,
`require_session_access`, `origin_allowed`, the ticket check of `client_ws`, and of the browser
grants: `issue_browser_grant`, `consume_browser_grant`, `create_browser_grant`.

`browser_grant_digest` is SHA-256 in base64url, a function outside this repository: it is the
parameter `digest`. The random token `issue_browser_grant` draws is an input.

`session_authorized` takes the lock only when `client_authorized` refuses; nothing changes under it.
-/

namespace SenseVoice.ControlPlane

open Lib Text

/-- `bearer_token`. -/
def bearerToken (req : Request) : Option String :=
  req.authorization.bind fun value => stripPrefix value "Bearer "

/-- `client_authorized`. -/
def clientAuthorized (req : Request) (cfg : Config) : Bool :=
  if cfg.demoMode && cfg.clientAccessToken.isEmpty then true
  else (bearerToken req).any (secretMatches cfg.clientAccessToken)

/-- `require_octos_service_access`: `none` when access is granted, else the error reply. -/
def requireOctosServiceAccess (req : Request) (cfg : Config) : Option Reply :=
  if cfg.octosServiceToken.isEmpty then
    some (renderError 503 "octos_integration_disabled" "Octos browser grants are not configured")
  else if (bearerToken req).any (secretMatches cfg.octosServiceToken) then none
  else some (renderError 401 "unauthorized" "Invalid Octos service token")

/-- The check `session_authorized` makes under the lock, for the ticket it read from the cookies. -/
def ticketAuthorized (a : AppState) (id : Uuid) (ticket : String) : Bool :=
  (a.inner.sessions.lookup id).any fun s => s.isOpen && secretMatches s.ticket ticket

/-- `session_authorized`. -/
def sessionAuthorized (cfg : Config) (a : AppState) (req : Request) (id : Uuid) : Bool :=
  clientAuthorized req cfg ||
    ticketAuthorized a id
      (((req.cookie "asr_session").or (req.cookie "asr_session_api")).getD "")

/-- `require_session_access`: `none` when access is granted, else the error reply. -/
def requireSessionAccess (cfg : Config) (a : AppState) (req : Request) (id : Uuid) : Option Reply :=
  if sessionAuthorized cfg a req id then none
  else some (renderError 401 "unauthorized" "Invalid session authorization")

/-- `origin_allowed`. -/
def originAllowed (req : Request) (cfg : Config) : Bool :=
  match cfg.allowedOrigin with
  | none => true
  | some expected => req.origin.any (· == expected)

/-- The check of `client_ws` under the lock. -/
def socketTicketValid (a : AppState) (id : Uuid) (ticket : String) : Bool :=
  (a.inner.sessions.lookup id).any fun s => s.ticket == ticket && s.isOpen

/-- `client_ws` up to the upgrade: the session whose socket is opened, or the error reply. -/
def clientWs (cfg : Config) (a : AppState) (req : Request) : Except Reply Uuid :=
  if !originAllowed req cfg then
    .error (renderError 403 "origin_forbidden" "Origin is not allowed")
  else
    match req.param with
    | none => .error (renderError 400 "bad_session_id" "Missing session id")
    | some id =>
      if socketTicketValid a id ((req.cookie "asr_session").getD "") then .ok id
      else .error (renderError 401 "invalid_ticket" "Invalid session ticket")

/-! ## Browser grants -/

/-- `valid_grant_identity`. -/
def validGrantIdentity (value : String) : Bool :=
  !(trim value).isEmpty && byteLen value ≤ 128 && !value.toList.any isControl

/-- The expiry `issue_browser_grant` computes. -/
def grantExpiry (nowMs ttlSeconds : Nat) : Nat :=
  saturatingAdd nowMs (saturatingMul ttlSeconds 1000)

/-- `BrowserGrantRequest`. -/
structure BrowserGrantRequest where
  subject : String
  profileId : String

section Digest

variable (digest : String → String)

/-- `issue_browser_grant`, for the random `token` drawn. -/
def issueBrowserGrant (inner : Inner) (subject profileId : String) (nowMs ttlSeconds : Nat)
    (token : String) : Inner :=
  { inner with browserGrants :=
    inner.browserGrants.insert (digest token) ⟨subject, profileId, grantExpiry nowMs ttlSeconds⟩ }

/-- `consume_browser_grant`: the grant leaves the table whether or not it is still valid. -/
def consumeBrowserGrant (inner : Inner) (token : String) (nowMs : Nat) :
    Inner × Option BrowserGrant :=
  match inner.browserGrants.lookup (digest token) with
  | none => (inner, none)
  | some grant =>
    ({ inner with browserGrants := inner.browserGrants.erase (digest token) },
      if grant.expiresAtMs ≥ nowMs then some grant else none)

/-- The identity a grant is issued for, or the error reply: the checks of `create_browser_grant`. -/
def grantIdentity (cfg : Config) (req : Request) (body : Option BrowserGrantRequest) :
    Except Reply BrowserGrantRequest :=
  match requireOctosServiceAccess req cfg with
  | some reply => .error reply
  | none =>
    match body with
    | none =>
      .error (renderError 400 "invalid_request" "A valid subject and profileId are required")
    | some request =>
      if !validGrantIdentity request.subject || !validGrantIdentity request.profileId then
        .error (renderError 400 "invalid_request" "A valid subject and profileId are required")
      else .ok request

/-- `create_browser_grant`; `body` is the parsed request, `none` when it does not parse. -/
def createBrowserGrant (cfg : Config) (req : Request) (body : Option BrowserGrantRequest)
    (nowMs : Nat) (token : String) (a : AppState) : AppState × Reply :=
  match grantIdentity cfg req body with
  | .error reply => (a, reply)
  | .ok request =>
    let inner := issueBrowserGrant digest a.inner (trim request.subject) (trim request.profileId)
      nowMs cfg.browserGrantTtlSeconds token
    ({ a with inner := inner },
      ⟨201, .json [("grant", .string token), ("expiresAtMs",
        .number (.unsigned (grantExpiry nowMs cfg.browserGrantTtlSeconds)))], []⟩)

end Digest

end SenseVoice.ControlPlane
