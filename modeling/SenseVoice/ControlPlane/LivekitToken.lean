import SenseVoice.ControlPlane.AgoraToken
import SenseVoice.Serde

/-!
# LiveKit tokens (`livekit_token.rs`)

Model of `build_livekit_token`, with the clock it reads. A token is a JWT: the header and the claims, each
the base64url form of its JSON text, and their signature, with `.` between them. The crates' functions are
parameters (`JwtCrypto`); that base64url has no `.` is what tells the segments apart. HMAC takes keys of any
length, so only the clock can make the function fail.

`decodeClaims` is `decode_segment` of the tests on the second segment, `readGrant` what the claims allow, by
their names; neither is used by the source outside its tests.

Results:
* `buildLivekitToken_cases`: when a token is built, and which;
* **`decodeClaims_livekitToken`**: the claims of a token are read back, whatever the names in them;
* `readGrant_claims`: the grant they carry.
-/

namespace SenseVoice.ControlPlane

open Lib Wire Text JsonText

/-- The functions of the crates. -/
structure JwtCrypto where
  hmac : (key value : Bytes) → Vector UInt8 32
  base64url : Lossless Bytes String
  noDot : ∀ bytes, '.' ∉ (base64url.encode bytes).toList
  ryu : Spelling ℚ

/-- The arguments of `build_livekit_token`. -/
structure LivekitArguments where
  apiKey : String
  apiSecret : String
  identity : String
  room : String
  canPublish : Bool
  ttlSeconds : UInt32

/-- `json!({ "alg": "HS256", "typ": "JWT" })`. -/
def tokenHeader : Value := .json [("alg", .string "HS256"), ("typ", .string "JWT")]

/-- A `u64` in JSON. -/
def jsonNat (n : ℕ) : Value := .number (.unsigned n)

/-- The claims. -/
def LivekitArguments.claims (a : LivekitArguments) (now : ℕ) : Value :=
  .json [("iss", .string a.apiKey), ("sub", .string a.identity), ("iat", jsonNat now),
    ("nbf", jsonNat (now - 10)), ("exp", jsonNat (wrappingAdd now a.ttlSeconds.toNat)),
    ("video", .json [("roomJoin", .bool true), ("room", .string a.room),
      ("canPublish", .bool a.canPublish), ("canSubscribe", .bool true)])]

section Build

variable (crypto : JwtCrypto)

/-- `URL_SAFE_NO_PAD.encode(value.to_string())`. -/
def segment (v : Value) : String := crypto.base64url.encode (asBytes (v.toText crypto.ryu))

/-- `signing_input`. -/
def signingInput (a : LivekitArguments) (now : ℕ) : String :=
  segment crypto tokenHeader ++ "." ++ segment crypto (a.claims now)

/-- The token of these arguments. -/
def livekitToken (a : LivekitArguments) (now : ℕ) : String :=
  let input := signingInput crypto a now
  input ++ "." ++ crypto.base64url.encode (crypto.hmac (asBytes a.apiSecret) (asBytes input)).toList

/-- `build_livekit_token`. -/
def buildLivekitToken (clockMs : ℤ) (a : LivekitArguments) : Except String String := do
  let now ← secondsSinceEpoch clockMs
  return livekitToken crypto a now

/-! ## The claims read back -/

/-- `token.split('.').nth(1)`. -/
def payloadSegment (token : String) : String :=
  String.ofList (((token.toList.dropWhile (· != '.')).drop 1).takeWhile (· != '.'))

/-- `String::from_utf8`. -/
def ofBytes (bytes : Bytes) : Option String := String.fromUTF8? ⟨bytes.toArray⟩

/-- The claims of a token: `decode_segment` of the tests. -/
def decodeClaims (token : String) : Option Value := do
  let bytes ← crypto.base64url.decode (payloadSegment token)
  let text ← ofBytes bytes
  Value.fromStr text

end Build

/-- What a token allows, to whom, where and until when. -/
structure LivekitGrant where
  identity : String
  room : String
  roomJoin : Bool
  canPublish : Bool
  canSubscribe : Bool
  expires : ℕ
deriving DecidableEq

/-- The grant in some claims. -/
def readGrant (claims : Value) : Option LivekitGrant := do
  let identity ← claims.strField "sub"
  let expires ← (claims.get "exp").bind Value.asU64
  let video ← claims.get "video"
  let room ← video.strField "room"
  let roomJoin ← (video.get "roomJoin").bind Value.asBool
  let canPublish ← (video.get "canPublish").bind Value.asBool
  let canSubscribe ← (video.get "canSubscribe").bind Value.asBool
  return ⟨identity, room, roomJoin, canPublish, canSubscribe, expires⟩

section Facts

variable {crypto : JwtCrypto} {a : LivekitArguments} {now : ℕ} {clockMs : ℤ}

/-- **When a token is built**, and which. -/
theorem buildLivekitToken_cases (crypto : JwtCrypto) (clockMs : ℤ) (a : LivekitArguments) :
    (0 ≤ clockMs ∧
        buildLivekitToken crypto clockMs a = .ok (livekitToken crypto a (clockMs / 1000).toNat)) ∨
      clockMs < 0 ∧ ∃ e, buildLivekitToken crypto clockMs a = .error e := by
  unfold buildLivekitToken secondsSinceEpoch
  by_cases h : clockMs < 0
  · rw [if_pos h]
    exact Or.inr ⟨h, _, rfl⟩
  · rw [if_neg h]
    exact Or.inl ⟨Int.not_lt.mp h, rfl⟩

theorem ofBytes_asBytes (s : String) : ofBytes (asBytes s) = some s := by
  have harray : (⟨(asBytes s).toArray⟩ : ByteArray) = s.toByteArray := rfl
  rw [ofBytes, harray, String.fromUTF8?, dif_pos s.isValidUTF8]
  rfl

/-- The second of three segments. -/
theorem payloadSegment_append {header claims rest : String} (hheader : '.' ∉ header.toList)
    (hclaims : '.' ∉ claims.toList) :
    payloadSegment (header ++ "." ++ claims ++ "." ++ rest) = claims := by
  have hskip : ∀ s : String, '.' ∉ s.toList → ∀ c ∈ s.toList, (c != '.') = true := by
    intro s hs c hc
    rw [bne_iff_ne]
    rintro rfl
    exact hs hc
  have hdot : ".".toList = ['.'] := rfl
  simp only [payloadSegment, String.toList_append, hdot, List.append_assoc, List.cons_append,
    List.nil_append]
  rw [List.dropWhile_append_of_pos (hskip header hheader), List.dropWhile_cons_of_neg (by decide),
    List.drop_one, List.tail_cons, List.takeWhile_append_of_pos (hskip claims hclaims),
    List.takeWhile_cons_of_neg (by decide), List.append_nil, String.ofList_toList]

theorem canonical_claims (h : now + a.ttlSeconds.toNat < 2 ^ 64) :
    (a.claims now).Canonical crypto.ryu := by
  have hnat : ∀ n < 2 ^ 64, (jsonNat n).Canonical crypto.ryu := fun n hn => Value.numberOf_unsigned hn
  refine Value.canonical_json fun f hf => ?_
  simp only [List.mem_cons, List.not_mem_nil, or_false] at hf
  rcases hf with rfl | rfl | rfl | rfl | rfl | rfl
  · trivial
  · trivial
  · exact hnat _ (by omega)
  · exact hnat _ (by omega)
  · exact hnat _ (Nat.mod_lt _ (by decide))
  · refine Value.canonical_json fun f hf => ?_
    simp only [List.mem_cons, List.not_mem_nil, or_false] at hf
    rcases hf with rfl | rfl | rfl | rfl <;> trivial

theorem depth_claims : (a.claims now).toDoc.depth ≤ Value.maxDepth := by
  have hvideo : ∀ f ∈ [("roomJoin", Value.bool true), ("room", .string a.room),
      ("canPublish", .bool a.canPublish), ("canSubscribe", .bool true)], f.2.toDoc.depth ≤ 0 := by
    intro f hf
    simp only [List.mem_cons, List.not_mem_nil, or_false] at hf
    rcases hf with rfl | rfl | rfl | rfl <;> exact Nat.le_refl 0
  have hclaims : (a.claims now).toDoc.depth ≤ 1 + 1 := by
    refine Value.depth_json fun f hf => ?_
    simp only [List.mem_cons, List.not_mem_nil, or_false] at hf
    rcases hf with rfl | rfl | rfl | rfl | rfl | rfl
    all_goals first
      | exact Value.depth_json hvideo
      | exact Nat.zero_le 1
  exact Nat.le_trans hclaims (by decide)

/-- **The claims of a token are read back.** -/
theorem decodeClaims_livekitToken (h : now + a.ttlSeconds.toNat < 2 ^ 64) :
    decodeClaims crypto (livekitToken crypto a now) = some (a.claims now) := by
  have hpayload : payloadSegment (livekitToken crypto a now) = segment crypto (a.claims now) :=
    payloadSegment_append (crypto.noDot _) (crypto.noDot _)
  simp only [decodeClaims, hpayload, segment, crypto.base64url.decode_encode, Option.bind_eq_bind,
    Option.bind_some, ofBytes_asBytes]
  exact Value.fromStr_toText (canonical_claims h) depth_claims

/-- **The grant that the claims carry.** -/
theorem readGrant_claims :
    readGrant (a.claims now) = some ⟨a.identity, a.room, true, a.canPublish, true,
      wrappingAdd now a.ttlSeconds.toNat⟩ := by
  simp [readGrant, LivekitArguments.claims, Value.json, Value.strField, Value.lookup_setField, jsonNat,
    Value.asStr, Value.asU64, Value.asBool]

end Facts

end SenseVoice.ControlPlane
