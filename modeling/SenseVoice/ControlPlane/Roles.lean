import SenseVoice.ControlPlane.System

/-!
# The three bearer secrets

A bearer is checked in three places: `client_authorized` for the operator, `require_octos_service_access` for the
Octos service, `bridge_ws` for the bridge. `Config::validate` compares the three secrets in different branches: each
of the other two with the Octos token where that is set, the operator's with the bridge's when `DEMO_MODE=false`.

`ct_eq` is the comparison of the `subtle` crate: `secretMatches_eq` says what `secret_matches` needs of it.

Results:
* `Separate.of_validate`: what the checks come to, put together;
* `accepts_iff`: a check accepts exactly the role's own secret;
* **`secrets_separate_roles`**: at most one check accepts a request, and none without a bearer.
-/

namespace SenseVoice.ControlPlane

open Text

/-- `secret_matches` with the comparison it calls, where that decides equality. -/
theorem secretMatches_eq {ctEq : ByteArray → ByteArray → Bool} (h : ∀ a b, ctEq a b = true ↔ a = b)
    (expected supplied : String) : secretMatches expected supplied =
      (byteLen expected == byteLen supplied && ctEq expected.toUTF8 supplied.toUTF8) := by
  unfold secretMatches
  congr 1
  rw [Bool.eq_iff_iff, h, beq_iff_eq]
  exact String.toByteArray_inj.symm

/-- Who a bearer may stand for. -/
inductive Role where
  | operator
  | octosService
  | bridge
deriving DecidableEq

namespace Role

/-- The secret of a role. -/
def secret (cfg : Config) : Role → String
  | operator => cfg.clientAccessToken
  | octosService => cfg.octosServiceToken
  | bridge => cfg.bridgeSharedSecret

/-- The role's check accepts the request. -/
def accepts (cfg : Config) (req : Request) : Role → Bool
  | operator => clientAuthorized req cfg
  | octosService => (requireOctosServiceAccess req cfg).isNone
  | bridge => bridgeAuthorized req cfg

end Role

/-- The secrets that are set are different, and only the Octos token may be unset. -/
structure Separate (cfg : Config) : Prop where
  operatorSet : cfg.clientAccessToken ≠ ""
  bridgeSet : cfg.bridgeSharedSecret ≠ ""
  operatorBridge : cfg.clientAccessToken ≠ cfg.bridgeSharedSecret
  octosBridge : cfg.octosServiceToken ≠ "" → cfg.octosServiceToken ≠ cfg.bridgeSharedSecret
  octosOperator : cfg.octosServiceToken ≠ "" → cfg.octosServiceToken ≠ cfg.clientAccessToken

variable {cfg : Config}

theorem ne_empty_of_byteLen {s : String} {n : Nat} (h : ¬ byteLen s < n) (hn : 0 < n) : s ≠ "" := by
  rintro rfl
  exact h hn

theorem secretMatches_false {a b : String} : secretMatches a b = false ↔ a ≠ b := by
  rw [Bool.eq_false_iff]
  exact not_congr secretMatches_iff

/-- The checks on the Octos token. -/
theorem validateOctos_ok (h : validateOctos cfg = .ok ()) (hset : cfg.octosServiceToken ≠ "") :
    cfg.octosServiceToken ≠ cfg.bridgeSharedSecret ∧
      (cfg.clientAccessToken ≠ "" → cfg.octosServiceToken ≠ cfg.clientAccessToken) := by
  have hnonempty : cfg.octosServiceToken.isEmpty = false := by
    simpa [String.isEmpty_iff] using hset
  unfold validateOctos at h
  rw [hnonempty, if_neg (by simp), bind_ok, reject_ok, reject_ok, Bool.or_eq_false_iff, Bool.and_eq_false_iff] at h
  obtain ⟨-, hbridge, hoperator⟩ := h
  refine ⟨secretMatches_false.mp hbridge, fun hclient => ?_⟩
  rcases hoperator with hempty | hdifferent
  · exact absurd (by simpa [String.isEmpty_iff] using hempty) hclient
  · exact secretMatches_false.mp hdifferent

/-- **What the checks of the branches come to.** -/
theorem Separate.of_validate (h : cfg.validate = .ok ()) (hdemo : cfg.demoMode = false) : Separate cfg := by
  unfold Config.validate at h
  simp only [bind_ok, hdemo, Bool.false_eq_true, if_false] at h
  obtain ⟨-, -, -, -, hoctos, -, -, -, hproduction, -, -⟩ := h
  unfold validateProduction at hproduction
  simp only [bind_ok, reject_ok, decide_eq_false_iff_not] at hproduction
  obtain ⟨-, hoperator, hbridge, hdifferent, -, -⟩ := hproduction
  have hset : cfg.clientAccessToken ≠ "" := ne_empty_of_byteLen hoperator (by decide)
  refine ⟨hset, ne_empty_of_byteLen hbridge (by decide), secretMatches_false.mp hdifferent, fun h => ?_, fun h => ?_⟩
  · exact (validateOctos_ok hoctos h).1
  · exact (validateOctos_ok hoctos h).2 hset

namespace Separate

/-- The secrets of two roles are different where they are set. -/
theorem secret_inj (h : Separate cfg) {r r' : Role} (hset : r.secret cfg ≠ "")
    (hsame : r.secret cfg = r'.secret cfg) : r = r' := by
  cases r with
  | operator =>
    cases r' with
    | operator => rfl
    | octosService =>
      have hset' : cfg.octosServiceToken ≠ "" := fun hempty => hset (hsame.trans hempty)
      exact absurd hsame.symm (h.octosOperator hset')
    | bridge => exact absurd hsame h.operatorBridge
  | octosService =>
    cases r' with
    | operator => exact absurd hsame (h.octosOperator hset)
    | octosService => rfl
    | bridge => exact absurd hsame (h.octosBridge hset)
  | bridge =>
    cases r' with
    | operator => exact absurd hsame.symm h.operatorBridge
    | octosService =>
      have hset' : cfg.octosServiceToken ≠ "" := fun hempty => hset (hsame.trans hempty)
      exact absurd hsame.symm (h.octosBridge hset')
    | bridge => rfl

end Separate

theorem any_secretMatches {bearer : Option String} {s : String} :
    bearer.any (secretMatches s) = true ↔ bearer = some s := by
  cases bearer with
  | none => simp
  | some t =>
    rw [Option.any_some, secretMatches_iff, Option.some.injEq]
    exact eq_comm

/-- **A check accepts the role's own secret and nothing else.** -/
theorem accepts_iff (h : Separate cfg) (hdemo : cfg.demoMode = false) (req : Request) (r : Role) :
    r.accepts cfg req = true ↔ bearerToken req = some (r.secret cfg) ∧ r.secret cfg ≠ "" := by
  cases r with
  | operator =>
    change clientAuthorized req cfg = true ↔ _
    unfold clientAuthorized
    rw [hdemo, Bool.false_and, if_neg (by simp), any_secretMatches]
    exact (and_iff_left h.operatorSet).symm
  | octosService =>
    change (requireOctosServiceAccess req cfg).isNone = true ↔ _
    unfold requireOctosServiceAccess
    by_cases hset : cfg.octosServiceToken = ""
    · simp [Role.secret, hset]
    · have hnonempty : cfg.octosServiceToken.isEmpty = false := by
        simpa [String.isEmpty_iff] using hset
      rw [hnonempty, if_neg (by simp), Role.secret, and_iff_left hset, ← any_secretMatches]
      split
      · rename_i hmatch
        exact iff_of_true rfl hmatch
      · rename_i hmatch
        exact iff_of_false (by simp) hmatch
  | bridge =>
    change bridgeAuthorized req cfg = true ↔ _
    unfold bridgeAuthorized
    rw [any_secretMatches]
    exact (and_iff_left h.bridgeSet).symm

/-- **Secrets separate roles**: under an accepted configuration with `DEMO_MODE=false`, at most one of the three
checks accepts a request, and none accepts one whose bearer is missing or empty. -/
theorem secrets_separate_roles (hvalid : cfg.validate = .ok ()) (hdemo : cfg.demoMode = false) (req : Request) :
    (∀ r r' : Role, r.accepts cfg req = true → r'.accepts cfg req = true → r = r') ∧
      (bearerToken req = none ∨ bearerToken req = some "" → ∀ r : Role, r.accepts cfg req = false) := by
  have hseparate := Separate.of_validate hvalid hdemo
  constructor
  · intro r r' hr hr'
    obtain ⟨hbearer, hset⟩ := (accepts_iff hseparate hdemo req r).mp hr
    obtain ⟨hbearer', -⟩ := (accepts_iff hseparate hdemo req r').mp hr'
    exact hseparate.secret_inj hset (Option.some.inj (hbearer.symm.trans hbearer'))
  · intro hbearer r
    rw [Bool.eq_false_iff]
    intro hr
    obtain ⟨hsecret, hset⟩ := (accepts_iff hseparate hdemo req r).mp hr
    rcases hbearer with hnone | hempty
    · rw [hnone] at hsecret
      exact absurd hsecret (by simp)
    · rw [hempty] at hsecret
      exact hset (Option.some.inj hsecret).symm

/-- `secrets_separate_roles` for the Octos service's own request. -/
theorem secrets_separate_octos :
    Role.octosService.accepts octosConfig (bearerRequest octosConfig.octosServiceToken "") = true ∧
      ∀ r' : Role, r'.accepts octosConfig (bearerRequest octosConfig.octosServiceToken "") = true →
        Role.octosService = r' := by
  have haccepts : Role.octosService.accepts octosConfig (bearerRequest octosConfig.octosServiceToken "") = true := by
    decide +kernel
  refine ⟨haccepts, fun r' => ?_⟩
  exact (secrets_separate_roles (by decide +kernel) rfl (bearerRequest octosConfig.octosServiceToken "")).1
    Role.octosService r' haccepts

end SenseVoice.ControlPlane
