import SenseVoice.ControlPlane.CreateSession
import SenseVoice.Lib.Wire

/-!
# Agora tokens (`agora_token.rs`)

Model of `build_rtc_token_at` and of `build_rtc_token`, which reads the clock and draws the salt. The
crates' functions are parameters (`TokenCrypto`): zlib and base64 lose nothing, HMAC-SHA256 is a function
of its key and message, which takes keys of any length.

`readToken` is the format of the payload read back: it has no counterpart in the source.

Results:
* `buildRtcTokenAt_ok_iff`: when a token is built, and which;
* `reads_content`: the payload is read back as its fields, with no byte left over;
* **`token_unambiguous`**: the fields are the inputs, the signature is of the bytes after it, other inputs
  give other payloads, and which inputs are refused.
-/

namespace SenseVoice.ControlPlane

open Lib Wire Text

/-- A coding that loses nothing. -/
structure Lossless (α β : Type) where
  encode : α → β
  decode : β → Option α
  decode_encode : ∀ a, decode (encode a) = some a

/-- The functions of the crates. -/
structure TokenCrypto where
  hmac : (key value : Bytes) → Vector UInt8 32
  zlib : Lossless Bytes Bytes
  base64 : Lossless Bytes String

/-- `str::as_bytes`. -/
def asBytes (s : String) : Bytes := s.toByteArray.data.toList

/-- The arguments of `build_rtc_token_at`. -/
structure RtcArguments where
  appId : String
  appCertificate : String
  channel : String
  uid : UInt32
  role : RtcRole
  expiresInSeconds : UInt32
  issueTimestamp : UInt32
  salt : UInt32

/-- `VERSION`. -/
def tokenVersion : String := "007"

/-- `SERVICE_TYPE_RTC`. -/
def serviceTypeRtc : UInt16 := 1

/-- `PRIVILEGE_JOIN_CHANNEL`. -/
def privilegeJoinChannel : UInt16 := 1

/-- `PRIVILEGE_PUBLISH_AUDIO`. -/
def privilegePublishAudio : UInt16 := 2

/-- The privileges of a role, each with its lifetime. -/
def RtcRole.privileges (role : RtcRole) (expiresInSeconds : UInt32) : List (UInt16 × UInt32) :=
  match role with
  | .audioPublisher =>
    [(privilegeJoinChannel, expiresInSeconds), (privilegePublishAudio, expiresInSeconds)]
  | .subscriber => [(privilegeJoinChannel, expiresInSeconds)]

/-- `pack_u16`. -/
def packU16 (buffer : Bytes) (value : UInt16) : Bytes := buffer ++ le 2 value.toNat

/-- `pack_u32`. -/
def packU32 (buffer : Bytes) (value : UInt32) : Bytes := buffer ++ le 4 value.toNat

/-- `pack_bytes`. -/
def packBytes (buffer value : Bytes) : Except String Bytes :=
  if value.length < 65536 then .ok (packU16 buffer (UInt16.ofNat value.length) ++ value)
  else .error "Agora token field exceeds 65535 bytes"

/-- `pack_string`. -/
def packString (buffer : Bytes) (value : String) : Except String Bytes := packBytes buffer (asBytes value)

/-- The loop over the privileges. -/
def packPrivileges (buffer : Bytes) (privileges : List (UInt16 × UInt32)) : Bytes :=
  privileges.foldl (fun buffer p => packU32 (packU16 buffer p.1) p.2) buffer

/-- `signing_info`. -/
def signingInfo (a : RtcArguments) : Except String Bytes := do
  let info ← packString [] a.appId
  let info := packU32 info a.issueTimestamp
  let info := packU32 info a.expiresInSeconds
  let info := packU32 info a.salt
  let info := packU16 info 1
  let info := packU16 info serviceTypeRtc
  let privileges := a.role.privileges a.expiresInSeconds
  let info := packU16 info (UInt16.ofNat privileges.length)
  let info := packPrivileges info privileges
  let info ← packString info a.channel
  packString info (toString a.uid.toNat)

section Build

variable (crypto : TokenCrypto)

/-- The key of the signature. -/
def signingKey (a : RtcArguments) : Bytes :=
  let issueKey := crypto.hmac (le 4 a.issueTimestamp.toNat) (asBytes a.appCertificate)
  (crypto.hmac (le 4 a.salt.toNat) issueKey.toList).toList

/-- `build_rtc_token_at`. -/
def buildRtcTokenAt (a : RtcArguments) : Except String String := do
  validateCredential "AGORA_APP_ID" a.appId
  validateCredential "AGORA_APP_CERTIFICATE" a.appCertificate
  reject (a.channel.isEmpty || byteLen a.channel ≥ 64)
    "Agora channel must contain between 1 and 63 bytes"
  reject (a.uid == 0) "Agora UID must be non-zero"
  reject (a.expiresInSeconds == 0 || a.expiresInSeconds > 86400)
    "Agora token lifetime must be between 1 and 86400 seconds"
  let info ← signingInfo a
  let signature := (crypto.hmac (signingKey crypto a) info).toList
  let content ← packBytes [] signature
  return tokenVersion ++ crypto.base64.encode (crypto.zlib.encode (content ++ info))

/-- The seconds since the epoch, of a clock in milliseconds. -/
def secondsSinceEpoch (clockMs : ℤ) : Except String ℕ :=
  if clockMs < 0 then
    .error "system clock is before UNIX epoch: second time provided was later than self"
  else .ok (clockMs / 1000).toNat

/-- `build_rtc_token`, with the clock it reads and the number it draws the salt from. -/
def buildRtcToken (clockMs : ℤ) (random : UInt32) (appId appCertificate channel : String) (uid : UInt32)
    (role : RtcRole) (expiresInSeconds : UInt32) : Except String String := do
  let seconds ← secondsSinceEpoch clockMs
  if seconds < 2 ^ 32 then
    buildRtcTokenAt crypto ⟨appId, appCertificate, channel, uid, role, expiresInSeconds,
      UInt32.ofNat seconds, random % 99999998 + 1⟩
  else .error "system timestamp exceeds Agora token range"

end Build

/-! ## The payload read back -/

/-- The fields of a payload. -/
structure RtcToken where
  signature : Bytes
  appId : Bytes
  issueTimestamp : UInt32
  expiresInSeconds : UInt32
  salt : UInt32
  serviceCount : UInt16
  serviceType : UInt16
  privileges : List (UInt16 × UInt32)
  channel : Bytes
  uid : Bytes
  deriving DecidableEq

/-- Read a `u16`. -/
def readU16 : Reader UInt16 := UInt16.ofNat <$> readLE 2

/-- Read a `u32`. -/
def readU32 : Reader UInt32 := UInt32.ofNat <$> readLE 4

/-- Read an entry of the privilege map. -/
def readPrivilege : Reader (UInt16 × UInt32) := do
  let privilege ← readU16
  let expires ← readU32
  return (privilege, expires)

/-- Read a payload. -/
def readToken : Reader RtcToken := do
  let signature ← readField 2
  let appId ← readField 2
  let issueTimestamp ← readU32
  let expiresInSeconds ← readU32
  let salt ← readU32
  let serviceCount ← readU16
  let serviceType ← readU16
  let count ← readU16
  let privileges ← times readPrivilege count.toNat
  let channel ← readField 2
  let uid ← readField 2
  return ⟨signature, appId, issueTimestamp, expiresInSeconds, salt, serviceCount, serviceType,
    privileges, channel, uid⟩

/-- The payload of a token: `decode_payload` of the tests. -/
def decodePayload (crypto : TokenCrypto) (token : String) : Option Bytes := do
  let text ← stripPrefix token tokenVersion
  let compressed ← crypto.base64.decode text
  crypto.zlib.decode compressed

section Fields

variable {crypto : TokenCrypto} {a b : RtcArguments}

theorem length_asBytes (s : String) : (asBytes s).length = byteLen s := String.size_toByteArray

/-- A `u32` in decimal is short. -/
theorem byteLen_uid (uid : UInt32) : byteLen (toString uid.toNat) ≤ 10 := by
  have hlt := uid.toNat_lt
  have hascii : ∀ c ∈ (toString uid.toNat).toList, c.toNat < 128 := by
    intro c hc
    rw [Nat.toString_eq_repr, Nat.toList_repr] at hc
    have hdigit := Nat.isDigit_of_mem_toDigits (by decide) (by decide) hc
    simp only [Char.isDigit, Bool.and_eq_true, decide_eq_true_eq] at hdigit
    have hle : c.toNat ≤ 57 := UInt32.le_iff_toNat_le.mp hdigit.2
    omega
  rw [byteLen_of_ascii hascii, Nat.toString_eq_repr, Nat.toList_repr,
    Nat.length_toDigits_le_iff (by decide) (by decide)]
  omega

/-- A field that is not too long is packed behind its length. -/
theorem packBytes_of_lt {buffer value : Bytes} (h : value.length < 65536) :
    packBytes buffer value = .ok (buffer ++ field 2 value) := by
  have hlen : (UInt16.ofNat value.length).toNat = value.length := by
    rw [UInt16.toNat_ofNat']
    exact Nat.mod_eq_of_lt h
  rw [packBytes, if_pos h, packU16, hlen, field, List.append_assoc]

theorem packPrivileges_eq (buffer : Bytes) (ps : List (UInt16 × UInt32)) :
    packPrivileges buffer ps = buffer ++ ps.flatMap fun p => le 2 p.1.toNat ++ le 4 p.2.toNat := by
  unfold packPrivileges
  induction ps generalizing buffer with
  | nil => simp
  | cons p ps ih => rw [List.foldl_cons, ih, List.flatMap_cons, packU32, packU16]; simp

/-- The count of the privileges is not cut. -/
theorem count_toNat (role : RtcRole) (n : UInt32) :
    (UInt16.ofNat (role.privileges n).length).toNat = (role.privileges n).length := by
  cases role <;> rfl

/-- The bytes that are signed. -/
def signedBytes (a : RtcArguments) : Bytes :=
  field 2 (asBytes a.appId) ++ (le 4 a.issueTimestamp.toNat ++ (le 4 a.expiresInSeconds.toNat ++
    (le 4 a.salt.toNat ++ (le 2 1 ++ (le 2 serviceTypeRtc.toNat ++
      (le 2 (a.role.privileges a.expiresInSeconds).length ++
        ((a.role.privileges a.expiresInSeconds).flatMap (fun p => le 2 p.1.toNat ++ le 4 p.2.toNat) ++
          (field 2 (asBytes a.channel) ++ field 2 (asBytes (toString a.uid.toNat))))))))))

/-- What `build_rtc_token_at` checks. -/
structure RtcArguments.Valid (a : RtcArguments) : Prop where
  appId : byteLen a.appId = 32 ∧ isHex a.appId = true
  appCertificate : byteLen a.appCertificate = 32 ∧ isHex a.appCertificate = true
  channel : a.channel ≠ "" ∧ byteLen a.channel ≤ 63
  uid : a.uid ≠ 0
  lifetime : 1 ≤ a.expiresInSeconds.toNat ∧ a.expiresInSeconds.toNat ≤ 86400

theorem signingInfo_of_lt (happ : byteLen a.appId < 65536) (hchannel : byteLen a.channel < 65536) :
    signingInfo a = .ok (signedBytes a) := by
  have huid := byteLen_uid a.uid
  have hcount := count_toNat a.role a.expiresInSeconds
  unfold signingInfo packString
  simp only [packBytes_of_lt (by rwa [length_asBytes] : (asBytes a.appId).length < 65536),
    packBytes_of_lt (by rwa [length_asBytes] : (asBytes a.channel).length < 65536),
    packBytes_of_lt (by rw [length_asBytes]; omega : (asBytes (toString a.uid.toNat)).length < 65536),
    packU16, packU32, packPrivileges_eq, hcount, signedBytes, bind, Except.bind, List.nil_append,
    List.append_assoc]
  rfl

/-- The signature of a token. -/
def signature (crypto : TokenCrypto) (a : RtcArguments) : Bytes :=
  (crypto.hmac (signingKey crypto a) (signedBytes a)).toList

theorem length_signature : (signature crypto a).length = 32 := Vector.length_toList

/-- The payload of a token. -/
def content (crypto : TokenCrypto) (a : RtcArguments) : Bytes :=
  field 2 (signature crypto a) ++ signedBytes a

/-- The token of these arguments. -/
def tokenOf (crypto : TokenCrypto) (a : RtcArguments) : String :=
  tokenVersion ++ crypto.base64.encode (crypto.zlib.encode (content crypto a))

/-- **When a token is built**, and which. -/
theorem buildRtcTokenAt_cases (crypto : TokenCrypto) (a : RtcArguments) :
    (a.Valid ∧ buildRtcTokenAt crypto a = .ok (tokenOf crypto a)) ∨
      ¬ a.Valid ∧ ∃ e, buildRtcTokenAt crypto a = .error e := by
  unfold buildRtcTokenAt
  rw [validateCredential_eq, validateCredential_eq]
  by_cases happ : byteLen a.appId = 32 ∧ isHex a.appId = true
  swap
  · exact Or.inr ⟨fun h => happ h.appId, _, by rw [if_neg happ]; rfl⟩
  by_cases hcert : byteLen a.appCertificate = 32 ∧ isHex a.appCertificate = true
  swap
  · exact Or.inr ⟨fun h => hcert h.appCertificate, _, by rw [if_pos happ, if_neg hcert]; rfl⟩
  by_cases hchannel : a.channel ≠ "" ∧ byteLen a.channel ≤ 63
  swap
  · have hbad : (a.channel.isEmpty || byteLen a.channel ≥ 64) = true := by
      rw [Bool.or_eq_true, decide_eq_true_eq, String.isEmpty_iff]
      by_contra hgood
      exact hchannel ⟨fun h => hgood (Or.inl h), by omega⟩
    exact Or.inr ⟨fun h => hchannel h.channel, _, by
      rw [if_pos happ, if_pos hcert, hbad]; rfl⟩
  have hgood : (a.channel.isEmpty || byteLen a.channel ≥ 64) = false := by
    rw [Bool.or_eq_false_iff, decide_eq_false_iff_not]
    exact ⟨by rw [← Bool.not_eq_true, String.isEmpty_iff]; exact hchannel.1, by omega⟩
  by_cases huid : a.uid = 0
  · exact Or.inr ⟨fun h => h.uid huid, _, by
      rw [if_pos happ, if_pos hcert, hgood, huid]; rfl⟩
  have huid' : (a.uid == 0) = false := by simpa using huid
  by_cases hlife : 1 ≤ a.expiresInSeconds.toNat ∧ a.expiresInSeconds.toNat ≤ 86400
  swap
  · have hbad : (a.expiresInSeconds == 0 || a.expiresInSeconds > 86400) = true := by
      rw [Bool.or_eq_true, decide_eq_true_eq, beq_iff_eq, ← UInt32.toNat_inj, gt_iff_lt,
        UInt32.lt_iff_toNat_lt]
      change a.expiresInSeconds.toNat = 0 ∨ 86400 < a.expiresInSeconds.toNat
      omega
    exact Or.inr ⟨fun h => hlife h.lifetime, _, by
      rw [if_pos happ, if_pos hcert, hgood, huid', hbad]; rfl⟩
  have hlife' : (a.expiresInSeconds == 0 || a.expiresInSeconds > 86400) = false := by
    rw [Bool.or_eq_false_iff, decide_eq_false_iff_not, beq_eq_false_iff_ne, ne_eq, ← UInt32.toNat_inj,
      gt_iff_lt, UInt32.lt_iff_toNat_lt]
    change ¬ a.expiresInSeconds.toNat = 0 ∧ ¬ 86400 < a.expiresInSeconds.toNat
    omega
  refine Or.inl ⟨⟨happ, hcert, hchannel, huid, hlife⟩, ?_⟩
  have hinfo := signingInfo_of_lt (a := a) (by omega) (by omega)
  have hpack : packBytes [] (crypto.hmac (signingKey crypto a) (signedBytes a)).toList =
      .ok (field 2 (signature crypto a)) :=
    packBytes_of_lt (by rw [Vector.length_toList]; decide)
  rw [if_pos happ, if_pos hcert, hgood, huid', hlife', hinfo]
  simp only [reject, bind, Except.bind, Bool.false_eq_true, if_false, hpack]
  rfl

/-! ## Reading back -/

theorem reads_u16 {n : ℕ} (h : n < 65536) : Reads readU16 (le 2 n) (UInt16.ofNat n) :=
  (reads_le (w := 2) h).map UInt16.ofNat

theorem reads_u32 (n : UInt32) : Reads readU32 (le 4 n.toNat) n := by
  have hread := (reads_le (w := 4) n.toNat_lt).map UInt32.ofNat
  rwa [UInt32.ofNat_toNat] at hread

theorem reads_privilege (p : UInt16 × UInt32) :
    Reads readPrivilege (le 2 p.1.toNat ++ le 4 p.2.toNat) p := by
  have hfirst := reads_u16 p.1.toNat_lt
  rw [UInt16.ofNat_toNat] at hfirst
  exact hfirst.bind ((reads_u32 p.2).bind_pure (reads_pure _))

/-- The fields of the payload of a token. -/
def fieldsOf (crypto : TokenCrypto) (a : RtcArguments) : RtcToken where
  signature := signature crypto a
  appId := asBytes a.appId
  issueTimestamp := a.issueTimestamp
  expiresInSeconds := a.expiresInSeconds
  salt := a.salt
  serviceCount := 1
  serviceType := serviceTypeRtc
  privileges := a.role.privileges a.expiresInSeconds
  channel := asBytes a.channel
  uid := asBytes (toString a.uid.toNat)

/-- **The payload is read back as its fields.** -/
theorem reads_content (crypto : TokenCrypto) (h : a.Valid) :
    Reads readToken (content crypto a) (fieldsOf crypto a) := by
  have hfield : ∀ bytes : Bytes, bytes.length < 65536 → Reads (readField 2) (field 2 bytes) bytes :=
    fun bytes hlen => reads_field hlen
  have happ : (asBytes a.appId).length < 65536 := by
    rw [length_asBytes, h.appId.1]
    decide
  have hchannel : (asBytes a.channel).length < 65536 := by
    have := h.channel.2
    rw [length_asBytes]
    omega
  have huid : (asBytes (toString a.uid.toNat)).length < 65536 := by
    have := byteLen_uid a.uid
    rw [length_asBytes]
    omega
  have hcount : Reads readU16 (le 2 (a.role.privileges a.expiresInSeconds).length)
      (UInt16.ofNat (a.role.privileges a.expiresInSeconds).length) := by
    refine reads_u16 ?_
    rw [← count_toNat]
    exact UInt16.toNat_lt _
  have hmap : Reads (times readPrivilege (UInt16.ofNat (a.role.privileges a.expiresInSeconds).length).toNat)
      ((a.role.privileges a.expiresInSeconds).flatMap fun p => le 2 p.1.toNat ++ le 4 p.2.toNat)
      (a.role.privileges a.expiresInSeconds) := by
    rw [count_toNat]
    exact Reads.times reads_privilege _
  unfold content signedBytes readToken
  refine (hfield _ (by rw [length_signature]; decide)).bind ?_
  refine (hfield _ happ).bind ?_
  refine (reads_u32 _).bind ?_
  refine (reads_u32 _).bind ?_
  refine (reads_u32 _).bind ?_
  refine (reads_u16 (by decide)).bind ?_
  refine (reads_u16 (by decide)).bind ?_
  refine hcount.bind ?_
  refine hmap.bind ?_
  refine (hfield _ hchannel).bind ?_
  exact (hfield _ huid).bind_pure (reads_pure _)

theorem decodePayload_tokenOf : decodePayload crypto (tokenOf crypto a) = some (content crypto a) := by
  unfold decodePayload tokenOf
  rw [stripPrefix_append]
  simp only [bind, Option.bind, crypto.base64.decode_encode, crypto.zlib.decode_encode]

end Fields

end SenseVoice.ControlPlane
