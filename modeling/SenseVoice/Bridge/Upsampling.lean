import SenseVoice.Bridge.Tts

/-!
# The upsampler is exact, however the stream is cut

`PcmUpsampler2x` carries two things from one `feed` to the next: the odd byte and the previous sample. With
them the calls put out what one call on the whole stream does: every sample, and between two neighbours their
midpoint, rounded down.

* `feedLoop` is the loop of `feed` on plain integers, with `to_bytes` as it is: it raises when the value does
  not fit (`none`). `Tts.lean` has the same loop over `Sample`, whose values fit by their type.
* `samplesOf` reads a stream as samples, `interpolated` is the upsampled list, by position.

Results:
* `feed_append`, `feeds_flatten`: two calls are one call on both chunks;
* `feedLoop_eq`: the loop on integers never raises, and is the loop over samples;
* **`upsampling_exact`**: every way to cut a stream gives the interpolated samples of the whole.
-/

namespace SenseVoice.Bridge

/-! ## The loop on integers -/

/-- `int.from_bytes(.., "little", signed=True)` of two bytes. -/
def signed16 (lo hi : UInt8) : ℤ :=
  let unsigned : ℤ := lo.toNat + 256 * hi.toNat
  if unsigned < 32768 then unsigned else unsigned - 65536

/-- `v.to_bytes(2, "little", signed=True)`; `none` is `OverflowError`. -/
def toBytes16 (v : ℤ) : Option Pcm :=
  if -32768 ≤ v ∧ v ≤ 32767 then
    let unsigned := (v % 65536).toNat
    some [UInt8.ofNat (unsigned % 256), UInt8.ofNat (unsigned / 256)]
  else none

/-- What a sample puts out: the midpoint before it, if there is a previous one, and itself. -/
def putSample (previous : Option ℤ) (sample : ℤ) : Option Pcm := do
  let midpoint ← (previous.map fun p => (p + sample) / 2).elim (some []) toBytes16
  let bytes ← toBytes16 sample
  return midpoint ++ bytes

/-- The loop of `feed`: what stays in `_pending`, `_last_sample`, and `out`. -/
def feedLoop : Option ℤ → Pcm → Option (Pcm × Option ℤ × Pcm)
  | previous, lo :: hi :: rest => do
    let bytes ← putSample previous (signed16 lo hi)
    let (pending, last, out) ← feedLoop (some (signed16 lo hi)) rest
    return (pending, last, bytes ++ out)
  | previous, rest => some (rest, previous, [])

/-- Successive calls of `feed` from `_pending` and `_last_sample`, with all they return. -/
def feedsFrom (pending : Pcm) (last : Option ℤ) : List Pcm → Option Pcm
  | [] => some []
  | pcm :: rest => do
    let (pending, last, out) ← feedLoop last (pending ++ pcm)
    let more ← feedsFrom pending last rest
    return out ++ more

/-! ## What it should put out -/

/-- The samples of a stream; an odd byte at the end is none. -/
def samplesOf : Pcm → List ℤ
  | lo :: hi :: rest => signed16 lo hi :: samplesOf rest
  | _ => []

/-- The samples, and between two neighbours their midpoint. -/
def interpolated (ss : List ℤ) : List ℤ :=
  (List.range (2 * ss.length - 1)).map fun j =>
    if j % 2 = 0 then ss.getD (j / 2) 0 else (ss.getD (j / 2) 0 + ss.getD (j / 2 + 1) 0) / 2

/-! ## The end of a stream -/

/-- What the loops leave has no sample. -/
theorem length_lt_two {rest : Pcm} (h : ∀ lo hi more, rest = lo :: hi :: more → False) : rest.length < 2 := by
  match rest, h with
  | [], _ => exact Nat.zero_lt_two
  | [_], _ => exact Nat.one_lt_two
  | lo :: hi :: more, h => exact absurd rfl (h lo hi more)

theorem samples_short {rest : Pcm} (h : rest.length < 2) (previous : Option Sample) :
    PcmUpsampler2x.samples previous rest = (⟨rest, previous⟩, []) := by
  match rest, h with
  | [], _ => rfl
  | [_], _ => rfl

theorem samplesOf_short {rest : Pcm} (h : rest.length < 2) : samplesOf rest = [] := by
  match rest, h with
  | [], _ => rfl
  | [_], _ => rfl

theorem feedLoop_short {rest : Pcm} (h : rest.length < 2) (previous : Option ℤ) :
    feedLoop previous rest = some (rest, previous, []) := by
  match rest, h with
  | [], _ => rfl
  | [_], _ => rfl

/-! ## The loop on integers is the loop over samples -/

theorem fromBytes_value (lo hi : UInt8) : (Sample.fromBytes lo hi).value = signed16 lo hi := by
  have hlo := lo.toNat_lt
  have hhi := hi.toNat_lt
  unfold Sample.fromBytes signed16
  dsimp only
  split <;> split <;> omega

/-- A sample can be converted. -/
theorem toBytes16_value (s : Sample) : toBytes16 s.value = some s.toBytes := by
  have hle := s.le_value
  have hlt := s.value_lt
  exact if_pos ⟨hle, by omega⟩

theorem putSample_eq (previous : Option Sample) (sample : Sample) :
    putSample (previous.map Sample.value) sample.value = some (PcmUpsampler2x.output previous sample) := by
  unfold putSample
  cases previous with
  | none =>
    rw [toBytes16_value]
    rfl
  | some p =>
    have hmid : (p.value + sample.value) / 2 = (p.midpoint sample).value := rfl
    simp only [Option.map_some, Option.elim_some, hmid, toBytes16_value]
    rfl

/-- **No conversion raises**: the loop on integers is the loop over samples. -/
theorem feedLoop_eq (previous : Option Sample) (data : Pcm) :
    feedLoop (previous.map Sample.value) data =
      some ((PcmUpsampler2x.samples previous data).1.pending,
        (PcmUpsampler2x.samples previous data).1.lastSample.map Sample.value,
        (PcmUpsampler2x.samples previous data).2) := by
  fun_induction PcmUpsampler2x.samples previous data with
  | case1 previous lo hi rest sample out ih =>
    have hsample : signed16 lo hi = sample.value := (fromBytes_value lo hi).symm
    rw [feedLoop, hsample, putSample_eq, show some sample.value = (some sample).map Sample.value from rfl, ih]
    rfl
  | case2 previous rest hshort => exact feedLoop_short (length_lt_two hshort) _

/-- Successive calls never raise either. -/
theorem feedsFrom_eq (u : PcmUpsampler2x) (chunks : List Pcm) :
    feedsFrom u.pending (u.lastSample.map Sample.value) chunks = some (u.feeds chunks).2 := by
  induction chunks generalizing u with
  | nil => rfl
  | cons pcm rest ih =>
    rw [feedsFrom, feedLoop_eq]
    have hrest := ih (u.feed pcm).1
    unfold PcmUpsampler2x.feed at hrest
    simp only [Option.bind_eq_bind, Option.bind_some, hrest]
    rfl

/-! ## Two calls are one -/

namespace PcmUpsampler2x

theorem samples_append (previous : Option Sample) (p q : Pcm) :
    samples previous (p ++ q) =
      ((samples (samples previous p).1.lastSample ((samples previous p).1.pending ++ q)).1,
        (samples previous p).2 ++
          (samples (samples previous p).1.lastSample ((samples previous p).1.pending ++ q)).2) := by
  fun_induction samples previous p with
  | case1 previous lo hi rest sample out ih =>
    rw [List.cons_append, List.cons_append, samples, ih, List.append_assoc]
  | case2 previous rest hshort => rfl

theorem feed_append (u : PcmUpsampler2x) (p q : Pcm) :
    u.feed (p ++ q) = (((u.feed p).1.feed q).1, (u.feed p).2 ++ ((u.feed p).1.feed q).2) := by
  unfold feed
  rw [← List.append_assoc]
  exact samples_append _ _ _

/-- At most an odd byte waits. -/
def AtRest (u : PcmUpsampler2x) : Prop := u.pending.length < 2

theorem samples_atRest (previous : Option Sample) (data : Pcm) : (samples previous data).1.AtRest := by
  fun_induction samples previous data with
  | case1 previous lo hi rest sample out ih => exact ih
  | case2 previous rest hshort => exact length_lt_two hshort

theorem feed_atRest (u : PcmUpsampler2x) (pcm : Pcm) : (u.feed pcm).1.AtRest := samples_atRest _ _

/-- An empty chunk changes nothing. -/
theorem feed_nil {u : PcmUpsampler2x} (h : u.AtRest) : u.feed [] = (u, []) := by
  unfold feed
  rw [List.append_nil]
  exact samples_short h _

/-- **The calls put out what one call on the whole stream does**, and leave the same upsampler. -/
theorem feeds_flatten {u : PcmUpsampler2x} (h : u.AtRest) (chunks : List Pcm) :
    u.feeds chunks = u.feed chunks.flatten := by
  induction chunks generalizing u with
  | nil => exact (feed_nil h).symm
  | cons pcm rest ih =>
    rw [feeds, ih (u.feed_atRest pcm), List.flatten_cons, feed_append]

end PcmUpsampler2x

/-! ## What one call puts out -/

/-- Two bytes read back as the sample they were made from. -/
theorem samplesOf_toBytes (s : Sample) (rest : Pcm) :
    samplesOf (s.toBytes ++ rest) = s.value :: samplesOf rest := by
  have hle := s.le_value
  have hlt := s.value_lt
  have hsigned : signed16 (UInt8.ofNat ((s.value % 65536).toNat % 256))
      (UInt8.ofNat ((s.value % 65536).toNat / 256)) = s.value := by
    unfold signed16
    rw [UInt8.toNat_ofNat', UInt8.toNat_ofNat']
    dsimp only
    split <;> omega
  exact congrArg (· :: samplesOf rest) hsigned

theorem length_toBytes (s : Sample) : s.toBytes.length = 2 := rfl

/-- The samples with the midpoint before each, after the sample `previous`. -/
def between : ℤ → List ℤ → List ℤ
  | _, [] => []
  | previous, s :: ss => (previous + s) / 2 :: s :: between s ss

theorem interpolated_cons_cons (s s' : ℤ) (ss : List ℤ) :
    interpolated (s :: s' :: ss) = s :: (s + s') / 2 :: interpolated (s' :: ss) := by
  have hcount : 2 * (s :: s' :: ss).length - 1 = 2 * (s' :: ss).length - 1 + 1 + 1 := by
    simp only [List.length_cons]
    omega
  unfold interpolated
  rw [hcount, List.range_succ_eq_map, List.map_cons, List.range_succ_eq_map, List.map_cons, List.map_cons,
    List.map_map, List.map_map]
  refine congrArg (s :: (s + s') / 2 :: ·) (List.map_congr_left fun j _ => ?_)
  have hparity : (j + 1 + 1) % 2 = j % 2 := by omega
  have hhalf : (j + 1 + 1) / 2 = j / 2 + 1 := by omega
  simp only [Function.comp, Nat.succ_eq_add_one, hparity, hhalf, List.getD_cons_succ]

theorem interpolated_cons (s : ℤ) (ss : List ℤ) : interpolated (s :: ss) = s :: between s ss := by
  induction ss generalizing s with
  | nil => rfl
  | cons s' ss ih => rw [interpolated_cons_cons, ih, between]

theorem samplesOf_samples_some (p : Sample) (data : Pcm) :
    samplesOf (PcmUpsampler2x.samples (some p) data).2 = between p.value (samplesOf data) := by
  induction data using samplesOf.induct generalizing p with
  | case1 lo hi rest ih =>
    rw [PcmUpsampler2x.samples, samplesOf, between]
    dsimp only [PcmUpsampler2x.output]
    rw [List.append_assoc, samplesOf_toBytes, samplesOf_toBytes, ih, ← fromBytes_value]
    rfl
  | case2 rest hshort =>
    rw [samples_short (length_lt_two hshort), samplesOf_short (length_lt_two hshort)]
    rfl

/-- One call on a whole stream puts out the interpolated samples. -/
theorem samplesOf_samples (data : Pcm) :
    samplesOf (PcmUpsampler2x.samples none data).2 = interpolated (samplesOf data) := by
  cases data using samplesOf.induct with
  | case1 lo hi rest =>
    rw [PcmUpsampler2x.samples, samplesOf, interpolated_cons]
    dsimp only [PcmUpsampler2x.output]
    rw [samplesOf_toBytes, samplesOf_samples_some, fromBytes_value]
  | case2 rest hshort =>
    rw [samples_short (length_lt_two hshort), samplesOf_short (length_lt_two hshort)]
    rfl

theorem length_samples_some (p : Sample) (data : Pcm) :
    (PcmUpsampler2x.samples (some p) data).2.length = 4 * (data.length / 2) := by
  induction data using samplesOf.induct generalizing p with
  | case1 lo hi rest ih =>
    rw [PcmUpsampler2x.samples, List.length_append, ih]
    dsimp only [PcmUpsampler2x.output]
    rw [List.length_append, length_toBytes, length_toBytes, List.length_cons, List.length_cons]
    omega
  | case2 rest hshort =>
    have hlt := length_lt_two hshort
    rw [samples_short hlt, List.length_nil]
    omega

/-- Twice as many samples, less one. -/
theorem length_samples (data : Pcm) :
    (PcmUpsampler2x.samples none data).2.length = 2 * (2 * (data.length / 2) - 1) := by
  cases data using samplesOf.induct with
  | case1 lo hi rest =>
    rw [PcmUpsampler2x.samples, List.length_append, length_samples_some]
    dsimp only [PcmUpsampler2x.output]
    rw [length_toBytes, List.length_cons, List.length_cons]
    omega
  | case2 rest hshort =>
    have hlt := length_lt_two hshort
    rw [samples_short hlt, List.length_nil]
    omega

theorem length_samplesOf (data : Pcm) : (samplesOf data).length = data.length / 2 := by
  induction data using samplesOf.induct with
  | case1 lo hi rest ih =>
    rw [samplesOf, List.length_cons, ih, List.length_cons, List.length_cons]
    omega
  | case2 rest hshort =>
    have hlt := length_lt_two hshort
    rw [samplesOf_short hlt, List.length_nil]
    omega

/-- **The upsampler is exact.** However a stream is cut into chunks, no conversion of its calls raises, they put
out together what one call on the whole stream does, and that is the `2 n - 1` samples between and at its `n`
samples. -/
theorem upsampling_exact (chunks : List Pcm) :
    ∃ out, feedsFrom [] none chunks = some out ∧ feedsFrom [] none [chunks.flatten] = some out ∧
      samplesOf out = interpolated (samplesOf chunks.flatten) ∧
      (samplesOf chunks.flatten).length = chunks.flatten.length / 2 ∧
      out.length = 2 * (2 * (chunks.flatten.length / 2) - 1) := by
  have hrest : PcmUpsampler2x.AtRest {} := Nat.zero_lt_two
  have hwhole := feedsFrom_eq {} [chunks.flatten]
  rw [PcmUpsampler2x.feeds_flatten hrest, List.flatten_singleton] at hwhole
  have hchunks := feedsFrom_eq {} chunks
  rw [PcmUpsampler2x.feeds_flatten hrest] at hchunks
  exact ⟨_, hchunks, hwhole, samplesOf_samples _, length_samplesOf _, length_samples _⟩

end SenseVoice.Bridge
