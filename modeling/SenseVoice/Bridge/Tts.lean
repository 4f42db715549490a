import SenseVoice.Bridge.Segmenter
import SenseVoice.Text

/-!
# PCM upsampling (`bridge/bridge/tts.py`)

Model of `PcmUpsampler2x`: 16-bit samples, twice as many of them, with the midpoint of two neighbours
between them. A chunk may end inside a sample; the odd byte waits for the next `feed`.

`Sample` carries that its value is one of 16 bits, so the conversions to bytes cannot raise.
-/

namespace SenseVoice.Bridge

/-- `str.strip` takes off what `str.isspace` accepts, which is more than Unicode's `White_Space`. -/
def isSpace (c : Char) : Bool := Text.isWhitespace c || (0x1C ≤ c.toNat && c.toNat ≤ 0x1F)

/-- `str.strip`. -/
def strip (s : String) : String :=
  String.ofList ((s.toList.dropWhile isSpace).reverse.dropWhile isSpace).reverse

/-- A signed 16-bit sample. -/
structure Sample where
  value : ℤ
  le_value : -32768 ≤ value
  value_lt : value < 32768

namespace Sample

/-- `int.from_bytes(.., "little", signed=True)`. -/
def fromBytes (lo hi : UInt8) : Sample where
  value := if hi.toNat < 128 then lo.toNat + 256 * hi.toNat else lo.toNat + 256 * hi.toNat - 65536
  le_value := by
    have hlo := lo.toNat_lt
    have hhi := hi.toNat_lt
    split <;> omega
  value_lt := by
    have hlo := lo.toNat_lt
    have hhi := hi.toNat_lt
    split <;> omega

/-- `to_bytes(2, "little", signed=True)`. -/
def toBytes (s : Sample) : Pcm :=
  let unsigned := (s.value % 65536).toNat
  [UInt8.ofNat (unsigned % 256), UInt8.ofNat (unsigned / 256)]

/-- `(previous + sample) // 2`. -/
def midpoint (previous sample : Sample) : Sample where
  value := (previous.value + sample.value) / 2
  le_value := by
    have hp := previous.le_value
    have hs := sample.le_value
    omega
  value_lt := by
    have hp := previous.value_lt
    have hs := sample.value_lt
    omega

end Sample

/-- `PcmUpsampler2x`. -/
structure PcmUpsampler2x where
  pending : Pcm := []
  lastSample : Option Sample := none

namespace PcmUpsampler2x

/-- What one sample puts out. -/
def output (previous : Option Sample) (sample : Sample) : Pcm :=
  match previous with
  | some previous => (previous.midpoint sample).toBytes ++ sample.toBytes
  | none => sample.toBytes

/-- The loop of `feed`, over the samples of the data; a byte too few for a sample stays. -/
def samples : Option Sample → Pcm → PcmUpsampler2x × Pcm
  | previous, lo :: hi :: rest =>
    let sample := Sample.fromBytes lo hi
    let out := samples (some sample) rest
    (out.1, output previous sample ++ out.2)
  | previous, rest => (⟨rest, previous⟩, [])

/-- `feed`. -/
def feed (pcm : Pcm) (u : PcmUpsampler2x) : PcmUpsampler2x × Pcm :=
  samples u.lastSample (u.pending ++ pcm)

/-- Successive calls of `feed`, with all they return. -/
def feeds (u : PcmUpsampler2x) : List Pcm → PcmUpsampler2x × Pcm
  | [] => (u, [])
  | pcm :: rest =>
    let out := u.feed pcm
    let more := out.1.feeds rest
    (more.1, out.2 ++ more.2)

theorem feeds_concat (u : PcmUpsampler2x) (pcms : List Pcm) (pcm : Pcm) :
    u.feeds (pcms ++ [pcm]) =
      (((u.feeds pcms).1.feed pcm).1, (u.feeds pcms).2 ++ ((u.feeds pcms).1.feed pcm).2) := by
  induction pcms generalizing u with
  | nil => simp only [List.nil_append, feeds, List.append_nil]
  | cons first pcms ih =>
    simp only [List.cons_append, feeds]
    rw [ih]
    simp only [List.append_assoc]

end PcmUpsampler2x

example : (PcmUpsampler2x.feeds {} [[0], [0, 100, 0]]).2 = [0, 0, 50, 0, 100, 0] := by decide

end SenseVoice.Bridge
