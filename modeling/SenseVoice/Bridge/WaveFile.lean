import SenseVoice.Lib.Riff

/-!
# WAV files (`pcm16_to_wav` in `bridge/bridge/sensevoice.py`, `read_pcm` in `bridge/smoke_sensevoice_live.py`)

Model of both functions and of what they use of Python's `wave`: `Wave_write` on a file that can be sought
in, with the header that is written for whole frames and patched where the data is not, and
`Wave_read.initfp`, `getnframes` and `readframes`. The messages of `wave.Error` are left out.

Results:
* `pcm16ToWav_eq`: the file `pcm16_to_wav` writes;
* `WaveFile.length_data_lt`: what is read of a file always fits the file that is written of it;
* **`readPcm_bytes`**: of every RIFF file, whatever chunks stand between those that count, `read_pcm` returns
  the frames or says what format it found;
* `readPcm_pcm16ToWav`: the whole frames of what `pcm16_to_wav` was given.
-/

namespace SenseVoice.Bridge

open Lib Wire Riff

/-- What is raised. -/
inductive WaveException where
  | eof
  | wave
  | runtime
  | struct
  | value (message : String)
deriving DecidableEq

/-- `if p: raise e`. -/
def raiseIf (p : Prop) [Decidable p] (e : WaveException) : Except WaveException Unit :=
  if p then .error e else .ok ()

/-- The names of chunks. -/
def ascii (text : String) : Bytes := text.toList.map fun c => UInt8.ofNat c.toNat

/-! ## Writing -/

/-- `struct.pack("<L", n)`. -/
def packL (n : ℕ) : Except WaveException Bytes := if n < 256 ^ 4 then .ok (le 4 n) else .error .struct

/-- `Wave_write._write_header`, for one channel of 16 bits. -/
def writeHeader (sampleRate datalength : ℕ) : Except WaveException Bytes := do
  let form ← packL (36 + datalength)
  let rate ← packL sampleRate
  let bytesPerSecond ← packL (1 * sampleRate * 2)
  let length ← packL datalength
  return ascii "RIFF" ++ form ++ ascii "WAVE" ++ ascii "fmt " ++ le 4 16 ++ le 2 1 ++ le 2 1 ++ rate ++
    bytesPerSecond ++ le 2 2 ++ le 2 16 ++ ascii "data" ++ length

/-- `seek(position)` and `write(bytes)`. -/
def overwrite (position : ℕ) (bytes file : Bytes) : Bytes :=
  file.take position ++ bytes ++ file.drop (position + bytes.length)

/-- `Wave_write._patchheader`. -/
def patchHeader (datawritten : ℕ) (file : Bytes) : Except WaveException Bytes := do
  let form ← packL (36 + datawritten)
  let length ← packL datawritten
  return overwrite 40 length (overwrite 4 form file)

/-- `pcm16_to_wav`. -/
def pcm16ToWav (pcm : Bytes) (sampleRate : ℕ) : Except WaveException Bytes := do
  raiseIf (sampleRate = 0) .wave
  let datalength := pcm.length / 2 * 2
  let header ← writeHeader sampleRate datalength
  let file := header ++ pcm
  if datalength ≠ pcm.length then patchHeader pcm.length file else return file

/-! ## Reading -/

/-- What `getnchannels`, `getsampwidth` and `getframerate` return. -/
structure WaveFormat where
  nchannels : ℕ
  sampwidth : ℕ
  framerate : ℕ
deriving DecidableEq

/-- `KSDATAFORMAT_SUBTYPE_PCM`. -/
def subtypePcm : Bytes := [1, 0, 0, 0, 0, 0, 16, 0, 128, 0, 0, 170, 0, 56, 155, 113]

/-- `chunk.read` and `struct.unpack_from`: too few bytes are an `EOFError`. -/
def unpack {α : Type} (r : Wire.Reader α) (chunk : Bytes) : Except WaveException (α × Bytes) :=
  match r.run chunk with
  | some result => .ok result
  | none => .error .eof

/-- The fields of `<HHLLH`: the tag, the channels and the rate are used. -/
def readHead : Wire.Reader (ℕ × ℕ × ℕ) := do
  let formatTag ← readLE 2
  let nchannels ← readLE 2
  let framerate ← readLE 4
  let _ ← readLE 4
  let _ ← readLE 2
  return (formatTag, nchannels, framerate)

/-- The rest of an extensible format. -/
def checkExtended (chunk : Bytes) : Except WaveException Unit := do
  let (_, chunk) ← unpack (take 8) chunk
  let (subFormat, _) ← unpack (take 16) chunk
  raiseIf (subFormat ≠ subtypePcm) .wave

/-- `Wave_read._read_fmt_chunk`. -/
def readFmtChunk (chunk : Bytes) : Except WaveException WaveFormat := do
  let ((formatTag, nchannels, framerate), chunk) ← unpack readHead chunk
  raiseIf (formatTag ≠ 0x0001 ∧ formatTag ≠ 0xFFFE) .wave
  let (bits, chunk) ← unpack (readLE 2) chunk
  if formatTag = 0xFFFE then checkExtended chunk else pure ()
  let sampwidth := (bits + 7) / 8
  raiseIf (sampwidth = 0) .wave
  raiseIf (nchannels = 0) .wave
  return ⟨nchannels, sampwidth, framerate⟩

/-- An open file: its format, and the length and the bytes of its data. -/
structure WaveRead where
  format : WaveFormat
  chunksize : ℕ
  data : Bytes
deriving DecidableEq

/-- The body of the loop in `initfp`. -/
def visitChunk (format : Option WaveFormat) (name : Bytes) (chunksize : ℕ) (chunk : Bytes) :
    Except WaveException (Option WaveFormat ⊕ WaveRead) :=
  if name = ascii "fmt " then (readFmtChunk chunk).map fun format => .inl (some format)
  else if name = ascii "data" then
    match format with
    | none => .error .wave
    | some format => .ok (.inr ⟨format, chunksize, chunk⟩)
  else .ok (.inl format)

/-- `Wave_read.initfp`. -/
def initfp (file : Bytes) : Except WaveException WaveRead :=
  match Window.next ⟨file.length, file⟩ with
  | none => .error .eof
  | some (name, size, body) =>
    if name ≠ ascii "RIFF" then .error .wave
    else
      let (form, riff) := Window.read 4 ⟨size, body.file⟩
      if form ≠ ascii "WAVE" then .error .wave
      else walk visitChunk .wave .runtime file.length none riff

namespace WaveRead

/-- `_framesize`. -/
def framesize (w : WaveRead) : ℕ := w.format.nchannels * w.format.sampwidth

/-- `getnframes`. -/
def nframes (w : WaveRead) : ℕ := w.chunksize / w.framesize

/-- `readframes`. -/
def readframes (nframes : ℕ) (w : WaveRead) : Bytes := w.data.take (nframes * w.framesize)

end WaveRead

/-- A tuple of the format, in Python. -/
def WaveFormat.toText (f : WaveFormat) : String :=
  "(" ++ Nat.repr f.nchannels ++ ", " ++ Nat.repr f.sampwidth ++ ", " ++ Nat.repr f.framerate ++ ")"

/-- `expected`. -/
def expectedFormat : WaveFormat := ⟨1, 2, 16000⟩

/-- The `ValueError` of `read_pcm`. -/
def unexpected (actual : WaveFormat) : WaveException :=
  .value ("Expected mono 16-bit 16 kHz WAV " ++ expectedFormat.toText ++ ", got " ++ actual.toText)

/-- `read_pcm`. -/
def readPcm (file : Bytes) : Except WaveException Bytes := do
  let wav ← initfp file
  raiseIf (wav.format ≠ expectedFormat) (unexpected wav.format)
  return wav.readframes wav.nframes

/-! ## The files that are read -/

/-- Not a chunk that `initfp` looks at. -/
def Other (c : Chunk) : Prop := c.name ≠ ascii "fmt " ∧ c.name ≠ ascii "data"

/-- A file with a format and data, and other chunks before them and between them. Nothing is asked of the
bytes after the data, and the length in the file's header may be more than what follows. -/
structure WaveFile where
  size : ℕ
  before : List Chunk
  fmt : Chunk
  format : WaveFormat
  between : List Chunk
  data : Chunk
  after : Bytes
  size_lt : size < 256 ^ 4
  before_other : ∀ c ∈ before, Other c
  fmt_name : fmt.name = ascii "fmt "
  fmt_format : readFmtChunk fmt.data = .ok format
  between_other : ∀ c ∈ between, Other c
  data_name : data.name = ascii "data"
  holds : 4 + (writeChunks before).length + fmt.bytes.length + (writeChunks between).length +
    data.unpadded.length ≤ size

namespace WaveFile

variable (f : WaveFile)

/-- The chunks before the data. -/
def chunks : List Chunk := f.before ++ (f.fmt :: f.between)

/-- The file. -/
def bytes : Bytes :=
  ascii "RIFF" ++ (le 4 f.size ++ (ascii "WAVE" ++ (writeChunks f.chunks ++ (f.data.unpadded ++ f.after))))

/-- The file, read. -/
def read : WaveRead := ⟨f.format, f.data.data.length, f.data.data⟩

variable {f}

theorem takes_readHead : Wire.Takes readHead 14 :=
  (takes_le 2).bind fun _ => (takes_le 2).bind fun _ => (takes_le 4).bind fun _ => (takes_le 4).bind fun _ =>
    (takes_le 2).bind fun _ => takes_pure _

theorem unpack_cases {α : Type} {r : Wire.Reader α} {n : ℕ} (hr : Wire.Takes r n) (bytes : Bytes) :
    (∃ a rest, unpack r bytes = .ok (a, rest) ∧ bytes.length = n + rest.length) ∨ unpack r bytes = .error .eof := by
  unfold unpack
  cases hrun : r.run bytes with
  | none => exact .inr rfl
  | some result => exact .inl ⟨result.1, result.2, rfl, hr hrun⟩

/-- A format that is read has its fourteen bytes and the two of the width. -/
theorem length_of_readFmtChunk {chunk : Bytes} {format : WaveFormat} (h : readFmtChunk chunk = .ok format) :
    16 ≤ chunk.length := by
  unfold readFmtChunk at h
  obtain ⟨⟨tag, nchannels, framerate⟩, rest, hhead, hlen⟩ | hhead := unpack_cases takes_readHead chunk
  · rw [hhead] at h
    change (raiseIf _ _ >>= fun _ => _) = _ at h
    obtain ⟨bits, rest', hbits, hlen'⟩ | hbits := unpack_cases (takes_le 2) rest
    · omega
    · rw [hbits, raiseIf] at h
      split_ifs at h <;> cases h
  · rw [hhead] at h
    cases h

/-- **The data of a file fits a file**: the length in the header counts it, and the format before it. -/
theorem length_data_lt : 36 + f.data.data.length < 256 ^ 4 := by
  have hfmt := length_of_readFmtChunk f.fmt_format
  have hholds := f.holds
  have hsize := f.size_lt
  rw [Chunk.length_bytes, Chunk.length_unpadded] at hholds
  omega

theorem visitChunk_other (format : Option WaveFormat) {c : Chunk} (h : Other c) :
    visitChunk format c.name c.data.length c.data = .ok (.inl format) := by
  unfold visitChunk
  rw [if_neg h.1, if_neg h.2]

theorem passes_chunks : Passes visitChunk none f.chunks (some f.format) := by
  have hfmt : visitChunk none f.fmt.name f.fmt.data.length f.fmt.data = .ok (.inl (some f.format)) := by
    rw [visitChunk, if_pos f.fmt_name, f.fmt_format]
    rfl
  have hbefore := passes_of_ignored fun c hc => visitChunk_other none (f.before_other c hc)
  have hbetween := passes_of_ignored fun c hc => visitChunk_other (some f.format) (f.between_other c hc)
  exact hbefore.append ⟨_, hfmt, hbetween⟩

theorem length_chunks : (writeChunks f.chunks).length =
    (writeChunks f.before).length + f.fmt.bytes.length + (writeChunks f.between).length := by
  simp only [chunks, writeChunks, List.flatMap_append, List.flatMap_cons, List.length_append]
  omega

theorem initfp_bytes : initfp f.bytes = .ok f.read := by
  have hdata : visitChunk (some f.format) f.data.name f.data.data.length f.data.data =
      .ok (.inr f.read) := by
    unfold visitChunk
    rw [f.data_name, if_neg (by decide), if_pos rfl]
    rfl
  have hholds := f.holds
  have hlen := length_chunks (f := f)
  have hcount := length_le_writeChunks f.chunks
  have hfour : (ascii "RIFF").length = 4 ∧ (ascii "WAVE").length = 4 := by decide
  have hbytes : f.bytes.length = 12 + (writeChunks f.chunks).length + f.data.unpadded.length + f.after.length := by
    simp only [bytes, List.length_append, length_le, hfour]
    omega
  have hnext : Window.next ⟨f.bytes.length, f.bytes⟩ = some (ascii "RIFF", f.size, ⟨f.bytes.length - 8,
      ascii "WAVE" ++ (writeChunks f.chunks ++ (f.data.unpadded ++ f.after))⟩) :=
    Window.next_append hfour.1 f.size_lt (by omega)
  have hform : Window.read 4 ⟨f.size, ascii "WAVE" ++ (writeChunks f.chunks ++ (f.data.unpadded ++ f.after))⟩ =
      (ascii "WAVE", ⟨f.size - 4, writeChunks f.chunks ++ (f.data.unpadded ++ f.after)⟩) :=
    Window.read_append hfour.2 (by omega)
  -- every chunk is longer than nothing, so there is fuel for all of them
  obtain ⟨fuel, hfuel⟩ : ∃ fuel, f.bytes.length = f.chunks.length + (fuel + 1) :=
    ⟨f.bytes.length - f.chunks.length - 1, by omega⟩
  have hwalk : walk visitChunk .wave .runtime f.bytes.length none
      ⟨f.size - 4, writeChunks f.chunks ++ (f.data.unpadded ++ f.after)⟩ = .ok f.read := by
    rw [hfuel, walk_chunks passes_chunks (by omega), walk_found hdata (by omega)]
  simp only [initfp, hnext, hform, hwalk, ne_eq, not_true_eq_false, if_false]

/-- **A WAV file is read**, or the format it has is named. -/
theorem readPcm_bytes (f : WaveFile) : readPcm f.bytes =
    if f.format = expectedFormat then .ok (f.data.data.take (f.data.data.length / 2 * 2))
    else .error (unexpected f.format) := by
  unfold readPcm
  rw [initfp_bytes]
  by_cases hformat : f.format = expectedFormat
  · have hsize : f.read.framesize = 2 := by
      rw [WaveRead.framesize, read, hformat]
      rfl
    rw [if_pos hformat]
    change (raiseIf (f.format ≠ expectedFormat) _ >>= fun _ => Except.ok (f.read.readframes f.read.nframes)) = _
    rw [raiseIf, if_neg (not_not_intro hformat), WaveRead.readframes, WaveRead.nframes, hsize]
    rfl
  · rw [if_neg hformat]
    change (raiseIf (f.format ≠ expectedFormat) _ >>= fun _ => _) = _
    rw [raiseIf, if_pos hformat]
    rfl

end WaveFile

/-! ## The file of `pcm16_to_wav` -/

/-- The bytes of a format chunk with the tag for PCM. -/
def fmtData (nchannels framerate bytesPerSecond blockAlign bits : ℕ) : Bytes :=
  le 2 1 ++ (le 2 nchannels ++ (le 4 framerate ++ (le 4 bytesPerSecond ++ (le 2 blockAlign ++ le 2 bits))))

theorem unpack_reads {α : Type} {r : Wire.Reader α} {bytes rest : Bytes} {a : α} (h : Wire.Reads r bytes a) :
    unpack r (bytes ++ rest) = .ok (a, rest) := by
  unfold unpack
  rw [h]

theorem readFmtChunk_fmtData {nchannels framerate bytesPerSecond blockAlign bits : ℕ}
    (hchannels : nchannels < 256 ^ 2) (hrate : framerate < 256 ^ 4) (hbytes : bytesPerSecond < 256 ^ 4)
    (halign : blockAlign < 256 ^ 2) (hbits : bits < 256 ^ 2) (hnot : nchannels ≠ 0) (hsome : bits ≠ 0) :
    readFmtChunk (fmtData nchannels framerate bytesPerSecond blockAlign bits) =
      .ok ⟨nchannels, (bits + 7) / 8, framerate⟩ := by
  have hhead : Wire.Reads readHead
      (le 2 1 ++ (le 2 nchannels ++ (le 4 framerate ++ (le 4 bytesPerSecond ++ le 2 blockAlign))))
      (1, nchannels, framerate) :=
    (reads_le (by norm_num)).bind <| (reads_le hchannels).bind <| (reads_le hrate).bind <|
      (reads_le hbytes).bind <| (reads_le halign).bind_pure (reads_pure _)
  have hdata : fmtData nchannels framerate bytesPerSecond blockAlign bits =
      le 2 1 ++ (le 2 nchannels ++ (le 4 framerate ++ (le 4 bytesPerSecond ++ le 2 blockAlign))) ++
        le 2 bits := by
    simp only [fmtData, List.append_assoc]
  have hwidth : (bits + 7) / 8 ≠ 0 := by omega
  have htail : unpack (readLE 2) (le 2 bits) = .ok (bits, []) := by
    have hrest : unpack (readLE 2) (le 2 bits ++ []) = .ok (bits, []) := unpack_reads (reads_le hbits)
    rwa [List.append_nil] at hrest
  unfold readFmtChunk
  rw [hdata, unpack_reads hhead]
  simp [htail, raiseIf, hwidth, hnot, bind, Except.bind, pure, Except.pure]

theorem length_fmtData (nchannels framerate bytesPerSecond blockAlign bits : ℕ) :
    (fmtData nchannels framerate bytesPerSecond blockAlign bits).length = 16 := by
  simp only [fmtData, List.length_append, length_le]

/-- The file of samples at a rate. -/
def pcmFile (pcm : Bytes) (sampleRate : ℕ) (hrate : 2 * sampleRate < 256 ^ 4) (hpcm : 36 + pcm.length < 256 ^ 4) :
    WaveFile where
  size := 36 + pcm.length
  before := []
  fmt := ⟨ascii "fmt ", fmtData 1 sampleRate (1 * sampleRate * 2) 2 16, by decide,
    by rw [length_fmtData]; norm_num⟩
  format := ⟨1, 2, sampleRate⟩
  between := []
  data := ⟨ascii "data", pcm, by decide, by omega⟩
  after := []
  size_lt := hpcm
  before_other _ h := absurd h List.not_mem_nil
  fmt_name := rfl
  fmt_format := readFmtChunk_fmtData (by norm_num) (by omega) (by omega) (by norm_num) (by norm_num)
    Nat.one_ne_zero (by norm_num)
  between_other _ h := absurd h List.not_mem_nil
  data_name := rfl
  holds := by
    rw [Chunk.length_bytes, Chunk.length_unpadded, length_fmtData]
    change 4 + 0 + (8 + (16 + 16 % 2)) + 0 + (8 + pcm.length) ≤ 36 + pcm.length
    omega

section Written

variable {pcm : Bytes} {sampleRate : ℕ}

/-- What `_write_header` writes for a length, with the length of the form given apart. -/
def headerBytes (form sampleRate length : ℕ) : Bytes :=
  ascii "RIFF" ++ (le 4 form ++ (ascii "WAVE" ++ (ascii "fmt " ++ (le 4 16 ++
    (fmtData 1 sampleRate (1 * sampleRate * 2) 2 16 ++ (ascii "data" ++ le 4 length))))))

theorem packL_of_lt {n : ℕ} (h : n < 256 ^ 4) : packL n = .ok (le 4 n) := if_pos h

theorem writeHeader_eq {n : ℕ} (hrate : 2 * sampleRate < 256 ^ 4) (hn : 36 + n < 256 ^ 4) :
    writeHeader sampleRate n = .ok (headerBytes (36 + n) sampleRate n) := by
  unfold writeHeader
  rw [packL_of_lt hn, packL_of_lt (n := sampleRate) (by omega), packL_of_lt (n := 1 * sampleRate * 2) (by omega),
    packL_of_lt (n := n) (by omega)]
  simp only [headerBytes, fmtData, List.append_assoc]
  rfl

/-- A field is written over. -/
theorem overwrite_append {a old b c : Bytes} {position : ℕ} (ha : a.length = position)
    (hlen : old.length = b.length) : overwrite position b (a ++ (old ++ c)) = a ++ (b ++ c) := by
  have hdrop : (a ++ (old ++ c)).drop (position + b.length) = c := by
    rw [← List.append_assoc]
    exact List.drop_left' (by rw [List.length_append, ha, hlen])
  rw [overwrite, hdrop, List.take_left' ha, List.append_assoc]

theorem patchHeader_eq {form n written : ℕ} (hwritten : 36 + written < 256 ^ 4) :
    patchHeader written (headerBytes form sampleRate n ++ pcm) =
      .ok (headerBytes (36 + written) sampleRate written ++ pcm) := by
  unfold patchHeader
  rw [packL_of_lt hwritten, packL_of_lt (n := written) (by omega)]
  have hform : overwrite 4 (le 4 (36 + written)) (headerBytes form sampleRate n ++ pcm) =
      headerBytes (36 + written) sampleRate n ++ pcm := by
    simp only [headerBytes, List.append_assoc]
    exact overwrite_append rfl (by rw [length_le, length_le])
  have hlength : overwrite 40 (le 4 written) (headerBytes (36 + written) sampleRate n ++ pcm) =
      headerBytes (36 + written) sampleRate written ++ pcm := by
    have hsplit : ∀ m, headerBytes (36 + written) sampleRate m ++ pcm =
        (ascii "RIFF" ++ (le 4 (36 + written) ++ (ascii "WAVE" ++ (ascii "fmt " ++ (le 4 16 ++
          (fmtData 1 sampleRate (1 * sampleRate * 2) 2 16 ++ ascii "data")))))) ++ (le 4 m ++ pcm) := fun m => by
      simp only [headerBytes, List.append_assoc]
    have hforty : (ascii "RIFF" ++ (le 4 (36 + written) ++ (ascii "WAVE" ++ (ascii "fmt " ++ (le 4 16 ++
        (fmtData 1 sampleRate (1 * sampleRate * 2) 2 16 ++ ascii "data")))))).length = 40 := by
      simp only [List.length_append, length_le, length_fmtData]
      decide
    rw [hsplit, hsplit, overwrite_append hforty (by rw [length_le, length_le])]
  change Except.ok (overwrite 40 (le 4 written) (overwrite 4 (le 4 (36 + written)) _)) = _
  rw [hform, hlength]

theorem bytes_pcmFile (hrate : 2 * sampleRate < 256 ^ 4) (hpcm : 36 + pcm.length < 256 ^ 4) :
    (pcmFile pcm sampleRate hrate hpcm).bytes = headerBytes (36 + pcm.length) sampleRate pcm.length ++ pcm := by
  have hpad : (pcmFile pcm sampleRate hrate hpcm).fmt.pad = [] := by
    change List.replicate ((fmtData 1 sampleRate (1 * sampleRate * 2) 2 16).length % 2) 0 = []
    rw [length_fmtData]
    rfl
  have hchunks : (pcmFile pcm sampleRate hrate hpcm).chunks = [(pcmFile pcm sampleRate hrate hpcm).fmt] := rfl
  rw [WaveFile.bytes, hchunks, writeChunks, List.flatMap_singleton, Chunk.bytes, hpad, Chunk.unpadded,
    Chunk.unpadded]
  simp only [pcmFile, length_fmtData, headerBytes, List.append_assoc, List.append_nil]

/-- **What `pcm16_to_wav` writes**, whether there are whole frames or not. -/
theorem pcm16ToWav_eq (hzero : sampleRate ≠ 0) (hrate : 2 * sampleRate < 256 ^ 4)
    (hpcm : 36 + pcm.length < 256 ^ 4) :
    pcm16ToWav pcm sampleRate = .ok (pcmFile pcm sampleRate hrate hpcm).bytes := by
  unfold pcm16ToWav
  rw [raiseIf, if_neg hzero]
  change (writeHeader sampleRate (pcm.length / 2 * 2) >>= fun header =>
    if pcm.length / 2 * 2 ≠ pcm.length then patchHeader pcm.length (header ++ pcm) else pure (header ++ pcm)) = _
  rw [writeHeader_eq hrate (by omega), bytes_pcmFile]
  change (if _ then _ else _) = _
  by_cases hodd : pcm.length / 2 * 2 = pcm.length
  · rw [if_neg (not_not_intro hodd), hodd]
    rfl
  · rw [if_pos hodd, patchHeader_eq hpcm]

/-- A header of 44 bytes. -/
theorem length_pcmFile (hrate : 2 * sampleRate < 256 ^ 4) (hpcm : 36 + pcm.length < 256 ^ 4) :
    (pcmFile pcm sampleRate hrate hpcm).bytes.length = 44 + pcm.length := by
  rw [bytes_pcmFile, List.length_append, headerBytes]
  simp only [List.length_append, length_le, length_fmtData]
  rfl

/-- More than fits the header is an error. -/
theorem pcm16ToWav_raises (hzero : sampleRate ≠ 0) (hpcm : 256 ^ 4 ≤ 36 + pcm.length) :
    pcm16ToWav pcm sampleRate = .error .struct := by
  have hlong : packL (36 + pcm.length / 2 * 2) = .error .struct := if_neg (by omega)
  have hheader : writeHeader sampleRate (pcm.length / 2 * 2) = .error .struct := by
    unfold writeHeader
    rw [hlong]
    rfl
  unfold pcm16ToWav
  rw [raiseIf, if_neg hzero]
  change (writeHeader sampleRate (pcm.length / 2 * 2) >>= _) = _
  rw [hheader]
  rfl

/-- **The whole frames come back.** -/
theorem readPcm_pcmFile (hrate : 2 * 16000 < 256 ^ 4) (hpcm : 36 + pcm.length < 256 ^ 4) :
    readPcm (pcmFile pcm 16000 hrate hpcm).bytes = .ok (pcm.take (pcm.length / 2 * 2)) := by
  rw [WaveFile.readPcm_bytes, if_pos]
  · rfl
  · rfl

end Written

end SenseVoice.Bridge
