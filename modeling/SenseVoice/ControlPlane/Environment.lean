import Mathlib.Data.List.DropRight
import Mathlib.Tactic.NormNum
import SenseVoice.ControlPlane.Config

/-!
# The configuration from the environment (`Config::from_env`)

Model of `from_env` and of `env_or`, `env_bool`, `env_u32` and `env_u64`. `env::var` fails for a variable
that is not set and for a value that is not Unicode, and the source treats both alike: `Environment` gives
`none` for either. A value ends before the first NUL of the process's memory, so no value holds one.
`Settings` is `Config` with the two fields that `ControlPlane.Config` leaves out.

`Settings.environment` writes settings back as variables; it has no counterpart in the source.

Results:
* `parseUnsigned_repr`, `parseUnsigned_lt`: numbers are read back, and what is read is in range;
* `fromEnv_environment`, `readable_of_fromEnv`: settings written and read, and what all settings have that
  were read;
* `naming_fromEnv`: every error begins with the name of a variable;
* **`settings_readable`**: the settings a process can start with.
-/

namespace SenseVoice.ControlPlane

open Text

/-! ## Variables -/

/-- No character of the text is NUL. -/
def NulFree (text : String) : Prop := Char.ofNat 0 ∉ text.toList

instance (text : String) : Decidable (NulFree text) := inferInstanceAs (Decidable (Char.ofNat 0 ∉ text.toList))

/-- The variables of a process. -/
structure Environment where
  /-- `env::var(name).ok()`. -/
  var : String → Option String
  nulFree : ∀ name value, var name = some value → NulFree value

/-- `env_or`. -/
def envOr (env : Environment) (name default : String) : String := (env.var name).getD default

/-- `str::parse::<bool>`. -/
def parseBool (value : String) : Option Bool :=
  if value = "true" then some true else if value = "false" then some false else none

/-- The characters after the sign: only `+` is one. -/
def afterPlus (value : List Char) : List Char := if value.head? = some '+' then value.tail else value

/-- The number of some decimal digits, if there are any and it is below the limit. -/
def numberBelow (limit : ℕ) (digits : List Char) : Option ℕ :=
  if digits ≠ [] ∧ digits.all Char.isDigit = true ∧ Nat.ofDigitChars 10 digits 0 < limit then
    some (Nat.ofDigitChars 10 digits 0)
  else none

/-- `str::parse::<u32>` and `str::parse::<u64>`, with the first number that does not fit. -/
def parseUnsigned (limit : ℕ) (value : String) : Option ℕ := numberBelow limit (afterPlus value.toList)

/-- A variable that is parsed, or has its default. -/
def envParsed {α : Type} (parse : String → Option α) (message : String) (env : Environment) (name : String)
    (default : α) : Except String α :=
  match env.var name with
  | none => .ok default
  | some value =>
    match parse value with
    | some a => .ok a
    | none => .error (name ++ message)

/-- `env_bool`. -/
def envBool : Environment → String → Bool → Except String Bool := envParsed parseBool " must be true or false"

/-- `env_u32`. -/
def envU32 : Environment → String → ℕ → Except String ℕ :=
  envParsed (parseUnsigned (2 ^ 32)) " must be an unsigned integer"

/-- `env_u64`. -/
def envU64 : Environment → String → ℕ → Except String ℕ :=
  envParsed (parseUnsigned (2 ^ 64)) " must be an unsigned integer"

/-! ## `from_env` -/

/-- `Config`, with `bind_addr` and `static_dir`. -/
structure Settings where
  bindAddr : String
  staticDir : String
  config : Config

/-- `allowed_origin`: a blank value is none. -/
def readOrigin (env : Environment) : Option String := (env.var "ALLOWED_ORIGIN").filter fun value => trim value ≠ ""

/-- The structure that `from_env` builds. -/
def readSettings (env : Environment) : Except String Settings := do
  let demoMode ← envBool env "DEMO_MODE" false
  let clientUid ← envU32 env "RTC_CLIENT_UID" 1001
  let bridgeUid ← envU32 env "RTC_BRIDGE_UID" 9001
  let rtcTokenTtlSeconds ← envU32 env "RTC_TOKEN_TTL_SECONDS" 1200
  let browserGrantTtlSeconds ← envU64 env "BROWSER_GRANT_TTL_SECONDS" 60
  let sessionTtlSeconds ← envU64 env "SESSION_TTL_SECONDS" 900
  let sessionCapacity ← envU32 env "SESSION_CAPACITY" 1
  return {
    bindAddr := envOr env "BIND_ADDR" "0.0.0.0:8080"
    staticDir := envOr env "STATIC_DIR" "static"
    config := {
      publicBaseUrl := trimEndMatches (envOr env "PUBLIC_BASE_URL" "http://localhost:8080") '/'
      allowedOrigin := readOrigin env
      rtcProvider := envOr env "RTC_PROVIDER" "agora"
      agoraAppId := envOr env "AGORA_APP_ID" ""
      agoraAppCertificate := envOr env "AGORA_APP_CERTIFICATE" ""
      livekitUrl := trimEndMatches (envOr env "LIVEKIT_URL" "") '/'
      livekitApiKey := envOr env "LIVEKIT_API_KEY" ""
      livekitApiSecret := envOr env "LIVEKIT_API_SECRET" ""
      channelPrefix := envOr env "RTC_CHANNEL_PREFIX" "asr"
      clientUid
      bridgeUid
      rtcTokenTtlSeconds
      clientAccessToken := envOr env "CLIENT_ACCESS_TOKEN" ""
      octosServiceToken := envOr env "OCTOS_SERVICE_TOKEN" ""
      browserGrantTtlSeconds
      bridgeSharedSecret := envOr env "BRIDGE_SHARED_SECRET" ""
      sessionTtlSeconds
      sessionCapacity
      demoMode } }

/-- `Config::from_env`. -/
def fromEnv (env : Environment) : Except String Settings := do
  let settings ← readSettings env
  settings.config.validate
  return settings

/-! ## Settings as variables -/

/-- The variables of some settings. -/
def Settings.variables (s : Settings) : List (String × String) :=
  [("DEMO_MODE", if s.config.demoMode then "true" else "false"), ("BIND_ADDR", s.bindAddr),
    ("STATIC_DIR", s.staticDir), ("PUBLIC_BASE_URL", s.config.publicBaseUrl),
    ("RTC_PROVIDER", s.config.rtcProvider), ("AGORA_APP_ID", s.config.agoraAppId),
    ("AGORA_APP_CERTIFICATE", s.config.agoraAppCertificate), ("LIVEKIT_URL", s.config.livekitUrl),
    ("LIVEKIT_API_KEY", s.config.livekitApiKey), ("LIVEKIT_API_SECRET", s.config.livekitApiSecret),
    ("RTC_CHANNEL_PREFIX", s.config.channelPrefix), ("RTC_CLIENT_UID", Nat.repr s.config.clientUid),
    ("RTC_BRIDGE_UID", Nat.repr s.config.bridgeUid),
    ("RTC_TOKEN_TTL_SECONDS", Nat.repr s.config.rtcTokenTtlSeconds),
    ("CLIENT_ACCESS_TOKEN", s.config.clientAccessToken), ("OCTOS_SERVICE_TOKEN", s.config.octosServiceToken),
    ("BROWSER_GRANT_TTL_SECONDS", Nat.repr s.config.browserGrantTtlSeconds),
    ("BRIDGE_SHARED_SECRET", s.config.bridgeSharedSecret),
    ("SESSION_TTL_SECONDS", Nat.repr s.config.sessionTtlSeconds),
    ("SESSION_CAPACITY", Nat.repr s.config.sessionCapacity)] ++
  s.config.allowedOrigin.toList.map fun origin => ("ALLOWED_ORIGIN", origin)

/-- The texts can be values of variables. -/
def Settings.NulFree (s : Settings) : Prop := ∀ name value, s.variables.lookup name = some value →
  ControlPlane.NulFree value

/-- The environment with these variables and no others. -/
def Settings.environment (s : Settings) (h : s.NulFree) : Environment where
  var name := s.variables.lookup name
  nulFree := h

/-- What settings have that were read from an environment. -/
structure Settings.Readable (s : Settings) : Prop where
  publicBaseUrl : trimEndMatches s.config.publicBaseUrl '/' = s.config.publicBaseUrl
  livekitUrl : trimEndMatches s.config.livekitUrl '/' = s.config.livekitUrl
  allowedOrigin : ∀ origin, s.config.allowedOrigin = some origin → trim origin ≠ ""
  uids : s.config.clientUid < 2 ^ 32 ∧ s.config.bridgeUid < 2 ^ 32
  nulFree : s.NulFree
  valid : s.config.validate = .ok ()

/-! ## Reading what was written -/

section Numbers

variable {limit n : ℕ} {value : String}

theorem parseUnsigned_lt (h : parseUnsigned limit value = some n) : n < limit := by
  unfold parseUnsigned numberBelow at h
  split_ifs at h with hdigits
  obtain rfl := Option.some.inj h
  exact hdigits.2.2

theorem parseUnsigned_repr (h : n < limit) : parseUnsigned limit (Nat.repr n) = some n := by
  have hdigit : ∀ c ∈ Nat.toDigits 10 n, c.isDigit = true := fun c hc =>
    Nat.isDigit_of_mem_toDigits (Nat.succ_pos 9) (Nat.le_refl 10) hc
  have hplus : (Nat.toDigits 10 n).head? ≠ some '+' := fun hhead =>
    absurd (hdigit '+' (List.mem_of_mem_head? hhead)) (by decide)
  rw [parseUnsigned, Nat.toList_repr, afterPlus, if_neg hplus, numberBelow, Nat.ofDigitChars_ten_toDigits,
    if_pos ⟨Nat.toDigits_ne_nil, List.all_eq_true.mpr hdigit, h⟩]

end Numbers

theorem parseBool_toText (b : Bool) : parseBool (if b then "true" else "false") = some b := by
  cases b <;> rfl

theorem trimEndMatches_idem (text : String) (c : Char) :
    trimEndMatches (trimEndMatches text c) c = trimEndMatches text c := by
  unfold trimEndMatches
  rw [String.toList_ofList, List.reverse_reverse, List.dropWhile_idempotent]

/-- What comes before something that succeeded has succeeded. -/
theorem bind_eq_ok {α β : Type} {m : Except String α} {f : α → Except String β} {b : β}
    (h : m >>= f = .ok b) : ∃ a, m = .ok a ∧ f a = .ok b := by
  cases m with
  | ok a => exact ⟨a, rfl, h⟩
  | error e => cases h

section Written

variable {α : Type} {parse : String → Option α} {message name value : String} {env : Environment} {default a : α}

/-- A variable that is set to a text of `a` is read as `a`. -/
theorem envParsed_of_some (hset : env.var name = some value) (hparse : parse value = some a) :
    envParsed parse message env name default = .ok a := by
  simp only [envParsed, hset, hparse]

theorem envParsed_ok (h : envParsed parse message env name default = .ok a) :
    a = default ∨ ∃ value, env.var name = some value ∧ parse value = some a := by
  unfold envParsed at h
  cases hset : env.var name with
  | none =>
    rw [hset] at h
    exact Or.inl (Except.ok.inj h).symm
  | some value =>
    rw [hset] at h
    dsimp only at h
    cases hparse : parse value with
    | none =>
      rw [hparse] at h
      cases h
    | some b =>
      rw [hparse] at h
      obtain rfl := Except.ok.inj h
      exact Or.inr ⟨value, rfl, hparse⟩

end Written

/-- Numbers that were read are in range, if their defaults are. -/
theorem envU32_lt {env : Environment} {name : String} {default n : ℕ} (hdefault : default < 2 ^ 32)
    (h : envU32 env name default = .ok n) : n < 2 ^ 32 := by
  obtain rfl | ⟨value, -, hparse⟩ := envParsed_ok h
  · exact hdefault
  · exact parseUnsigned_lt hparse

/-- The numbers that `validate` accepts. -/
theorem validate_bounds {cfg : Config} (h : cfg.validate = .ok ()) :
    cfg.sessionTtlSeconds ≤ 3600 ∧ cfg.sessionCapacity ≤ 1000 ∧ cfg.browserGrantTtlSeconds ≤ 300 ∧
      cfg.rtcTokenTtlSeconds ≤ 86400 := by
  unfold Config.validate at h
  simp only [bind_ok, reject_ok] at h
  obtain ⟨-, hsession, hcapacity, hgrant, -, htoken, -⟩ := h
  simp only [Bool.or_eq_false_iff, Bool.not_eq_false', Bool.and_eq_true, decide_eq_true_eq,
    decide_eq_false_iff_not, Nat.not_lt, gt_iff_lt] at hsession hcapacity hgrant htoken
  exact ⟨hsession.2, hcapacity.2, hgrant.2, htoken.1⟩

section Settings

variable {s : Settings} {env : Environment} {hfree : s.NulFree}

theorem readOrigin_environment (h : s.Readable) : readOrigin (s.environment hfree) = s.config.allowedOrigin := by
  have hset : (s.environment hfree).var "ALLOWED_ORIGIN" = s.config.allowedOrigin := by
    change s.variables.lookup "ALLOWED_ORIGIN" = _
    unfold Settings.variables
    cases s.config.allowedOrigin with
    | none => rfl
    | some origin => rfl
  rw [readOrigin, hset]
  cases horigin : s.config.allowedOrigin with
  | none => rfl
  | some origin => exact if_pos (decide_eq_true (h.allowedOrigin origin horigin))

/-- A variable that is written as a text is read as that text. -/
theorem envOr_environment (text : String) {name default : String} (h : s.variables.lookup name = some text) :
    envOr (s.environment hfree) name default = text := by
  change (s.variables.lookup name).getD default = text
  rw [h]
  rfl

theorem envU32_environment {name : String} {n default : ℕ} (h : s.variables.lookup name = some (Nat.repr n))
    (hn : n < 2 ^ 32) : envU32 (s.environment hfree) name default = .ok n :=
  envParsed_of_some h (parseUnsigned_repr hn)

theorem envU64_environment {name : String} {n default : ℕ} (h : s.variables.lookup name = some (Nat.repr n))
    (hn : n < 2 ^ 64) : envU64 (s.environment hfree) name default = .ok n :=
  envParsed_of_some h (parseUnsigned_repr hn)

/-- **Settings come back** from their variables. -/
theorem fromEnv_environment (h : s.Readable) : fromEnv (s.environment h.nulFree) = .ok s := by
  obtain ⟨hsession, hcapacity, hgrant, htoken⟩ := validate_bounds h.valid
  have hread : readSettings (s.environment h.nulFree) = .ok s := by
    unfold readSettings
    have hdemo : (s.environment h.nulFree).var "DEMO_MODE" =
        some (if s.config.demoMode then "true" else "false") := rfl
    rw [envBool, envParsed_of_some hdemo (parseBool_toText _),
      envU32_environment (n := s.config.clientUid) rfl h.uids.1,
      envU32_environment (n := s.config.bridgeUid) rfl h.uids.2,
      envU32_environment (n := s.config.rtcTokenTtlSeconds) rfl (by omega),
      envU64_environment (n := s.config.browserGrantTtlSeconds) rfl (by omega),
      envU64_environment (n := s.config.sessionTtlSeconds) rfl (by omega),
      envU32_environment (n := s.config.sessionCapacity) rfl (by omega),
      envOr_environment s.bindAddr rfl, envOr_environment s.staticDir rfl,
      envOr_environment s.config.publicBaseUrl rfl, readOrigin_environment h,
      envOr_environment s.config.rtcProvider rfl,
      envOr_environment s.config.agoraAppId rfl,
      envOr_environment s.config.agoraAppCertificate rfl,
      envOr_environment s.config.livekitUrl rfl,
      envOr_environment s.config.livekitApiKey rfl,
      envOr_environment s.config.livekitApiSecret rfl,
      envOr_environment s.config.channelPrefix rfl,
      envOr_environment s.config.clientAccessToken rfl,
      envOr_environment s.config.octosServiceToken rfl,
      envOr_environment s.config.bridgeSharedSecret rfl, h.publicBaseUrl, h.livekitUrl]
    rfl
  unfold fromEnv
  rw [hread]
  change (s.config.validate >>= fun _ => Except.ok s) = _
  rw [h.valid]
  rfl

/-- A variable, or a default that could be one. -/
theorem nulFree_envOr (env : Environment) {name default : String} (h : NulFree default) :
    NulFree (envOr env name default) := by
  unfold envOr
  cases hset : env.var name with
  | none => exact h
  | some value => exact env.nulFree name value hset

theorem nulFree_trimEndMatches {text : String} (c : Char) (h : NulFree text) : NulFree (trimEndMatches text c) := by
  unfold NulFree trimEndMatches
  rw [String.toList_ofList, List.mem_reverse]
  exact fun hmem => h (List.mem_reverse.1 ((List.dropWhile_sublist _).mem hmem))

theorem nulFree_repr (n : ℕ) : NulFree (Nat.repr n) := by
  intro hmem
  rw [Nat.toList_repr] at hmem
  exact absurd (Nat.isDigit_of_mem_toDigits (Nat.succ_pos 9) (Nat.le_refl 10) hmem) (by decide)

theorem nulFree_bool (b : Bool) : NulFree (if b then "true" else "false") := by
  cases b <;> decide

theorem nulFree_of_forall (h : ∀ p ∈ s.variables, NulFree p.2) : s.NulFree := by
  intro name value hlookup
  obtain ⟨before, after, heq, -⟩ := List.lookup_eq_some_iff.1 hlookup
  exact h (name, value) (heq ▸ List.mem_append_right _ List.mem_cons_self)

/-- What is read before `validate`. -/
theorem readSettings_ok (h : readSettings env = .ok s) :
    s.NulFree ∧ (∃ text, s.config.publicBaseUrl = trimEndMatches text '/') ∧
      (∃ text, s.config.livekitUrl = trimEndMatches text '/') ∧ s.config.allowedOrigin = readOrigin env ∧
      s.config.clientUid < 2 ^ 32 ∧ s.config.bridgeUid < 2 ^ 32 := by
  unfold readSettings at h
  obtain ⟨demoMode, -, h⟩ := bind_eq_ok h
  obtain ⟨clientUid, hclient, h⟩ := bind_eq_ok h
  obtain ⟨bridgeUid, hbridge, h⟩ := bind_eq_ok h
  obtain ⟨rtcTokenTtlSeconds, -, h⟩ := bind_eq_ok h
  obtain ⟨browserGrantTtlSeconds, -, h⟩ := bind_eq_ok h
  obtain ⟨sessionTtlSeconds, -, h⟩ := bind_eq_ok h
  obtain ⟨sessionCapacity, -, h⟩ := bind_eq_ok h
  obtain rfl := Except.ok.inj h
  refine ⟨nulFree_of_forall ?_, ⟨_, rfl⟩, ⟨_, rfl⟩, rfl, envU32_lt (by decide) hclient,
    envU32_lt (by decide) hbridge⟩
  have horigin : ∀ p ∈ (readOrigin env).toList.map fun origin => ("ALLOWED_ORIGIN", origin), NulFree p.2 := by
    intro p hp
    obtain ⟨origin, hmem, rfl⟩ := List.mem_map.1 hp
    exact env.nulFree _ _ (Option.filter_eq_some_iff.1 (Option.mem_toList.1 hmem)).1
  simp only [Settings.variables, List.forall_mem_append, List.forall_mem_cons]
  exact ⟨⟨nulFree_bool _, nulFree_envOr env (by decide), nulFree_envOr env (by decide),
    nulFree_trimEndMatches _ (nulFree_envOr env (by decide)), nulFree_envOr env (by decide),
    nulFree_envOr env (by decide), nulFree_envOr env (by decide),
    nulFree_trimEndMatches _ (nulFree_envOr env (by decide)), nulFree_envOr env (by decide),
    nulFree_envOr env (by decide), nulFree_envOr env (by decide), nulFree_repr _, nulFree_repr _, nulFree_repr _,
    nulFree_envOr env (by decide), nulFree_envOr env (by decide), nulFree_repr _, nulFree_envOr env (by decide),
    nulFree_repr _, nulFree_repr _, fun _ h => absurd h List.not_mem_nil⟩, horigin⟩

/-- **Settings that were read** have no slash at the end of a URL, no blank origin and no NUL, and were
validated. -/
theorem readable_of_fromEnv (h : fromEnv env = .ok s) : s.Readable := by
  obtain ⟨s', hread, h⟩ := bind_eq_ok h
  obtain ⟨u, hvalid, h⟩ := bind_eq_ok h
  obtain rfl := Except.ok.inj h
  obtain ⟨hfree, ⟨url, hurl⟩, ⟨livekit, hlivekit⟩, horigin, hclient, hbridge⟩ := readSettings_ok hread
  refine ⟨?_, ?_, fun origin h => ?_, ⟨hclient, hbridge⟩, hfree, hvalid⟩
  · rw [hurl, trimEndMatches_idem]
  · rw [hlivekit, trimEndMatches_idem]
  · rw [horigin, readOrigin, Option.filter_eq_some_iff] at h
    exact of_decide_eq_true h.2

end Settings

/-! ## Errors -/

/-- The variables that `from_env` complains about. -/
def checkedVariables : List String :=
  ["DEMO_MODE", "RTC_CLIENT_UID", "RTC_BRIDGE_UID", "RTC_TOKEN_TTL_SECONDS", "BROWSER_GRANT_TTL_SECONDS",
    "SESSION_TTL_SECONDS", "SESSION_CAPACITY", "BRIDGE_SHARED_SECRET", "OCTOS_SERVICE_TOKEN",
    "RTC_CHANNEL_PREFIX", "RTC_PROVIDER", "AGORA_APP_ID", "AGORA_APP_CERTIFICATE", "LIVEKIT_URL",
    "LIVEKIT_API_KEY", "LIVEKIT_API_SECRET", "CLIENT_ACCESS_TOKEN", "PUBLIC_BASE_URL", "ALLOWED_ORIGIN"]

/-- The text begins with the name of a variable. -/
def NamesVariable (message : String) : Prop := ∃ name ∈ checkedVariables, startsWith message (name ++ " ") = true

instance (message : String) : Decidable (NamesVariable message) :=
  inferInstanceAs (Decidable (∃ name ∈ checkedVariables, startsWith message (name ++ " ") = true))

/-- Every error names a variable. -/
def Naming {α : Type} (m : Except String α) : Prop := ∀ e, m = .error e → NamesVariable e

section Naming

variable {α β : Type}

theorem naming_ok (a : α) : Naming (.ok a) := fun _ h => by cases h

theorem naming_error {message : String} (h : NamesVariable message) : Naming (.error message : Except String α) :=
  fun _ heq => Except.error.inj heq ▸ h

theorem Naming.bind {m : Except String α} {f : α → Except String β} (hm : Naming m) (hf : ∀ a, Naming (f a)) :
    Naming (m >>= f) := by
  intro e h
  cases m with
  | ok a => exact hf a e h
  | error e' => exact hm e (congrArg Except.error (Except.error.inj h))

theorem naming_reject {bad : Bool} {message : String} (h : NamesVariable message) : Naming (reject bad message) := by
  cases bad with
  | false => exact naming_ok ()
  | true => exact naming_error h

theorem naming_envParsed {parse : String → Option α} {message : String} {env : Environment} {name : String}
    {default : α} (h : NamesVariable (name ++ message)) : Naming (envParsed parse message env name default) := by
  unfold envParsed
  split
  · exact naming_ok _
  · split
    · exact naming_ok _
    · exact naming_error h

theorem naming_validateCredential {name value : String}
    (h : NamesVariable (name ++ " must be a 32-character hexadecimal value")) :
    Naming (validateCredential name value) := by
  rw [validateCredential_eq]
  by_cases hvalid : byteLen value = 32 ∧ isHex value = true
  · rw [if_pos hvalid]
    exact naming_ok ()
  · rw [if_neg hvalid]
    exact naming_error h

theorem naming_validateLivekitUrl (value : String) : Naming (validateLivekitUrl value) := by
  unfold validateLivekitUrl
  split
  · exact naming_error (by decide +kernel)
  · split
    · exact naming_error (by decide +kernel)
    · exact naming_ok ()

theorem naming_validateProvider (cfg : Config) : Naming (validateProvider cfg) := by
  unfold validateProvider
  split
  · exact (naming_validateCredential (by decide +kernel)).bind fun _ =>
      naming_validateCredential (by decide +kernel)
  · exact (naming_validateLivekitUrl _).bind fun _ => (naming_reject (by decide +kernel)).bind fun _ =>
      (naming_reject (by decide +kernel)).bind fun _ => naming_reject (by decide +kernel)

theorem naming_validateProduction (cfg : Config) : Naming (validateProduction cfg) :=
  (naming_validateProvider cfg).bind fun _ => (naming_reject (by decide +kernel)).bind fun _ =>
    (naming_reject (by decide +kernel)).bind fun _ => (naming_reject (by decide +kernel)).bind fun _ =>
      (naming_reject (by decide +kernel)).bind fun _ => naming_reject (by decide +kernel)

theorem naming_validateOctos (cfg : Config) : Naming (validateOctos cfg) := by
  unfold validateOctos
  split
  · exact naming_ok ()
  · exact (naming_reject (by decide +kernel)).bind fun _ => naming_reject (by decide +kernel)

theorem naming_validate (cfg : Config) : Naming cfg.validate := by
  unfold Config.validate
  refine (naming_reject (by decide +kernel)).bind fun _ => (naming_reject (by decide +kernel)).bind fun _ =>
    (naming_reject (by decide +kernel)).bind fun _ => (naming_reject (by decide +kernel)).bind fun _ =>
      (naming_validateOctos cfg).bind fun _ => (naming_reject (by decide +kernel)).bind fun _ =>
        (naming_reject (by decide +kernel)).bind fun _ => (naming_reject (by decide +kernel)).bind fun _ => ?_
  have huids : ∀ _ : Unit, Naming (do
      reject (cfg.clientUid == 0 || cfg.bridgeUid == 0) "RTC_CLIENT_UID and RTC_BRIDGE_UID must be non-zero"
      reject (cfg.clientUid == cfg.bridgeUid) "RTC_CLIENT_UID and RTC_BRIDGE_UID must be different") :=
    fun _ => (naming_reject (by decide +kernel)).bind fun _ => naming_reject (by decide +kernel)
  dsimp only
  split
  · exact (naming_ok ()).bind huids
  · exact (naming_validateProduction cfg).bind huids

theorem naming_readSettings (env : Environment) : Naming (readSettings env) :=
  (naming_envParsed (by decide +kernel)).bind fun _ => (naming_envParsed (by decide +kernel)).bind fun _ =>
    (naming_envParsed (by decide +kernel)).bind fun _ => (naming_envParsed (by decide +kernel)).bind fun _ =>
      (naming_envParsed (by decide +kernel)).bind fun _ => (naming_envParsed (by decide +kernel)).bind fun _ =>
        (naming_envParsed (by decide +kernel)).bind fun _ => naming_ok _

theorem naming_fromEnv (env : Environment) : Naming (fromEnv env) :=
  (naming_readSettings env).bind fun s => (naming_validate s.config).bind fun _ => naming_ok s

end Naming

/-- **The settings a process can start with** are those without a slash at the end of a URL, without a blank
origin and without a NUL that `validate` accepts. They come back from their own variables, and where there are
none the error begins with the name of a variable. -/
theorem settings_readable :
    (∀ s : Settings, (∃ env, fromEnv env = .ok s) ↔ s.Readable) ∧
      (∀ env s, fromEnv env = .ok s → ∃ hfree : s.NulFree, fromEnv (s.environment hfree) = .ok s) ∧
      ∀ env e, fromEnv env = .error e → NamesVariable e := by
  refine ⟨fun s => ⟨?_, fun h => ⟨_, fromEnv_environment h⟩⟩, ?_, naming_fromEnv⟩
  · rintro ⟨env, h⟩
    exact readable_of_fromEnv h
  · intro env s h
    exact ⟨_, fromEnv_environment (readable_of_fromEnv h)⟩

end SenseVoice.ControlPlane
