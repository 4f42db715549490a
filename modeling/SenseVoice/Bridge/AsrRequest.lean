import SenseVoice.Bridge.ExtractText
import SenseVoice.Bridge.ServerTiming
import SenseVoice.Bridge.WaveFile
import SenseVoice.Lib.Base64

/-!
# A recognition request (`SenseVoiceClient` in `bridge/bridge/sensevoice.py`)

Model of `transcribe_detailed` and of `run` in `bridge/smoke_sensevoice_live.py`, which reads a WAV file and
has it recognized. The HTTP client is a parameter (`post`): what it returns for a request, or the exception
it raises. The clock is one as well. The body is a JSON value, or the parts of a form.

The abstract side is a server that knows the contract (`Understands`): it decodes the audio of a request,
whatever its form, and answers with a text it finds for the frames.

Results:
* **`request_carries`**: when a request is made, and that its audio is the utterance, with no byte lost and
  none shared by two utterances;
* **`smoke_recognizes`**: of every WAV file the tool prints what the server finds for its frames, over
  either protocol, and sends nothing of a file in another format.
-/

namespace SenseVoice.Bridge

open Lib Wire Python

/-- The settings of `SenseVoiceClient`. -/
structure SenseVoiceClient where
  url : String
  model : String := "qwen3-asr"
  apiKey : String := ""
  language : String := "Chinese"
  protocol : String := "octos-json"

/-- `json=body`, or `data=data` and `files=files` with one file. -/
inductive RequestBody where
  | json (body : Value)
  | multipart (data : List (String × String)) (fileName : String) (content : Bytes) (contentType : String)

/-- What `post` is called with. -/
structure AsrRequest where
  url : String
  headers : List (String × String)
  body : RequestBody

/-- What the calls of `transcribe_detailed` and `run` raise: `HTTPStatusError` with its status. -/
inductive AsrException where
  | wave (e : WaveException)
  | value (message : String)
  | transport (message : String)
  | status (code : ℕ)
  | jsonDecode
  | runtime (message : String)
deriving DecidableEq

/-- A response: `none` where `response.json()` raises. -/
structure AsrResponse where
  status : ℕ
  json : Option Value
  serverTiming : Option String

/-- The headers of a request. -/
def SenseVoiceClient.headers (client : SenseVoiceClient) : List (String × String) :=
  if client.apiKey = "" then [] else [("Authorization", "Bearer " ++ client.apiKey)]

/-- The form of `openai-multipart`. -/
def SenseVoiceClient.formData (client : SenseVoiceClient) : List (String × String) :=
  [("model", client.model), ("response_format", "json")] ++
    if client.language ≠ "" ∧ client.language ≠ "auto" then [("language", client.language)] else []

/-- The request of a file: the branches on `self.protocol`. -/
def SenseVoiceClient.requestOf (client : SenseVoiceClient) (wavBytes : Bytes) : Except AsrException AsrRequest :=
  if client.protocol = "octos-json" then
    .ok ⟨client.url, client.headers, .json (.json [("file", .string (Base64.standard.encode wavBytes)),
      ("language", .string client.language), ("response_format", .string "verbose_json")])⟩
  else if client.protocol = "openai-multipart" then
    .ok ⟨client.url, client.headers, .multipart client.formData "speech.wav" wavBytes "audio/wav"⟩
  else .error (.value ("Unsupported ASR_PROTOCOL: " ++ client.protocol))

/-- `transcribe_detailed`, up to the call of `post`. -/
def SenseVoiceClient.request (client : SenseVoiceClient) (pcm : Bytes) : Except AsrException AsrRequest := do
  let wavBytes ← (pcm16ToWav pcm 16000).mapError .wave
  client.requestOf wavBytes

/-- What `time.perf_counter_ns` returns, call by call. -/
structure Readings where
  totalStarted : ℤ
  prepared : ℤ
  requestStarted : ℤ
  answered : ℤ
  parseStarted : ℤ
  parsed : ℤ
  total : ℤ

/-- `elapsed_ms`. -/
def elapsedMs (started now : ℤ) : PyFloat :=
  .ofRat (decide (now < started)) (|(now - started : ℤ)| / 1000000)

/-- `x * 1000.0`. -/
def timesThousand : PyFloat → PyFloat
  | .finite negative m => .ofRat negative (m.value * 1000)
  | x => x

/-- `len(pcm) / (16_000 * 2) * 1000.0`. -/
def audioDurationMs (bytes : ℕ) : PyFloat := timesThousand (.ofRat false (bytes / (16000 * 2)))

/-- `TranscriptionResult`. -/
structure TranscriptionResult where
  text : String
  audioDurationMs : PyFloat
  requestPrepareMs : PyFloat
  httpRoundTripMs : PyFloat
  responseParseMs : PyFloat
  totalMs : PyFloat
  serverTimingMs : List (String × PyFloat)

/-- `response.raise_for_status()`. -/
def raiseForStatus (response : AsrResponse) : Except AsrException Unit :=
  if 200 ≤ response.status ∧ response.status < 300 then .ok () else .error (.status response.status)

/-- `extract_text(response.json()).strip()`. -/
def responseText (u : Unicode) (response : AsrResponse) : Except AsrException String :=
  match response.json with
  | none => .error .jsonDecode
  | some payload =>
    match extractText payload with
    | .ok text => .ok (String.ofList (PyFloat.strip u.isSpace text.toList))
    | .error e => .error (.value e.message)

section Transcribe

variable (u : Unicode) (post : AsrRequest → Except String AsrResponse) (clock : Readings)

/-- `transcribe_detailed`, from the return of `post`. -/
def resultOf (pcm : Bytes) (response : AsrResponse) : Except AsrException TranscriptionResult := do
  raiseForStatus response
  let text ← responseText u response
  return ⟨text, audioDurationMs pcm.length, elapsedMs clock.totalStarted clock.prepared,
    elapsedMs clock.requestStarted clock.answered, elapsedMs clock.parseStarted clock.parsed,
    elapsedMs clock.totalStarted clock.total, parseServerTiming u (response.serverTiming.getD "")⟩

/-- `transcribe_detailed`. -/
def SenseVoiceClient.transcribeDetailed (client : SenseVoiceClient) (pcm : Bytes) :
    Except AsrException TranscriptionResult := do
  let request ← client.request pcm
  let response ← (post request).mapError .transport
  resultOf u clock pcm response

/-- `run` of the smoke test: the text it prints. -/
def SenseVoiceClient.smoke (client : SenseVoiceClient) (file : Bytes) : Except AsrException String := do
  let pcm ← (readPcm file).mapError .wave
  let result ← client.transcribeDetailed u post clock pcm
  if result.text = "" then .error (.runtime "ASR returned an empty transcript") else .ok result.text

end Transcribe

/-! ## The audio of a request -/

/-- The WAV file in a request. -/
def AsrRequest.audio (request : AsrRequest) : Option Bytes :=
  match request.body with
  | .json body => (body.strField "file").bind Base64.standard.decode
  | .multipart _ _ content _ => some content

/-- The protocols there are. -/
def SenseVoiceClient.Supported (client : SenseVoiceClient) : Prop :=
  client.protocol = "octos-json" ∨ client.protocol = "openai-multipart"

instance (client : SenseVoiceClient) : Decidable client.Supported := inferInstanceAs (Decidable (_ ∨ _))

/-- The length that fits the header of a WAV file. -/
def FitsWav (pcm : Bytes) : Prop := 36 + pcm.length < 256 ^ 4

/-- The frames of some samples: a single byte at the end is none. -/
def wholeFrames (pcm : Bytes) : Bytes := pcm.take (pcm.length / 2 * 2)

/-- The file of an utterance. -/
def utteranceFile (pcm : Bytes) (h : FitsWav pcm) : WaveFile := pcmFile pcm 16000 (by norm_num) h

section Request

variable {client : SenseVoiceClient} {pcm wavBytes : Bytes}

/-- A supported protocol carries the file as it is. -/
theorem requestOf_supported (h : client.Supported) (wavBytes : Bytes) :
    ∃ request, client.requestOf wavBytes = .ok request ∧ request.audio = some wavBytes := by
  unfold SenseVoiceClient.requestOf
  by_cases hjson : client.protocol = "octos-json"
  · rw [if_pos hjson]
    refine ⟨_, rfl, ?_⟩
    simp [AsrRequest.audio, Value.strField, Value.json, Value.lookup_setField, Value.asStr,
      Base64.Coding.decode_encode]
  · rw [if_neg hjson, if_pos (h.resolve_left hjson)]
    exact ⟨_, rfl, rfl⟩

theorem requestOf_unsupported (h : ¬ client.Supported) (wavBytes : Bytes) :
    client.requestOf wavBytes = .error (.value ("Unsupported ASR_PROTOCOL: " ++ client.protocol)) := by
  unfold SenseVoiceClient.requestOf
  rw [if_neg fun hjson => h (Or.inl hjson), if_neg fun hform => h (Or.inr hform)]

theorem request_of_fits (h : FitsWav pcm) (client : SenseVoiceClient) :
    client.request pcm = client.requestOf (utteranceFile pcm h).bytes := by
  have hwav : pcm16ToWav pcm 16000 = .ok (utteranceFile pcm h).bytes :=
    pcm16ToWav_eq (by norm_num) (by norm_num) h
  unfold SenseVoiceClient.request
  rw [hwav]
  rfl

theorem request_of_too_long (h : ¬ FitsWav pcm) (client : SenseVoiceClient) :
    client.request pcm = .error (.wave .struct) := by
  unfold SenseVoiceClient.request
  rw [pcm16ToWav_raises (by norm_num) (Nat.le_of_not_lt h)]
  rfl

/-- A request has the file of its utterance. -/
theorem request_audio {request : AsrRequest} (h : client.request pcm = .ok request) :
    ∃ hfits : FitsWav pcm, client.Supported ∧ request.audio = some (utteranceFile pcm hfits).bytes := by
  by_cases hfits : FitsWav pcm
  · rw [request_of_fits hfits] at h
    by_cases hs : client.Supported
    · obtain ⟨request', heq, haudio⟩ := requestOf_supported hs (utteranceFile pcm hfits).bytes
      obtain rfl := Except.ok.inj (heq.symm.trans h)
      exact ⟨hfits, hs, haudio⟩
    · rw [requestOf_unsupported hs] at h
      cases h
  · rw [request_of_too_long hfits] at h
    cases h

/-- The samples are what follows the header. -/
theorem drop_utteranceFile (h : FitsWav pcm) : (utteranceFile pcm h).bytes.drop 44 = pcm := by
  have hbytes : (utteranceFile pcm h).bytes = headerBytes (36 + pcm.length) 16000 pcm.length ++ pcm :=
    bytes_pcmFile _ _
  rw [hbytes]
  exact List.drop_left' rfl

/-- **A request carries its utterance.** There is a request exactly if the protocol is supported and the
length fits the header; its audio is a file of 44 bytes more than the utterance, of which `read_pcm` returns
the whole frames; and no other utterance has the same request, of whatever client. -/
theorem request_carries (client : SenseVoiceClient) (pcm : Bytes) :
    ((∃ request, client.request pcm = .ok request) ↔ client.Supported ∧ FitsWav pcm) ∧
      ∀ request, client.request pcm = .ok request →
        (∃ file, request.audio = some file ∧ file.length = 44 + pcm.length ∧
          readPcm file = .ok (wholeFrames pcm)) ∧
        ∀ (client' : SenseVoiceClient) (pcm' : Bytes), client'.request pcm' = .ok request → pcm' = pcm := by
  refine ⟨⟨?_, ?_⟩, fun request h => ⟨?_, fun client' pcm' h' => ?_⟩⟩
  · rintro ⟨request, h⟩
    obtain ⟨hfits, hs, -⟩ := request_audio h
    exact ⟨hs, hfits⟩
  · rintro ⟨hs, hfits⟩
    obtain ⟨request, heq, -⟩ := requestOf_supported hs (utteranceFile pcm hfits).bytes
    exact ⟨request, (request_of_fits hfits client).trans heq⟩
  · obtain ⟨hfits, -, haudio⟩ := request_audio h
    exact ⟨_, haudio, length_pcmFile _ _, readPcm_pcmFile _ _⟩
  · obtain ⟨hfits, -, haudio⟩ := request_audio h
    obtain ⟨hfits', -, haudio'⟩ := request_audio h'
    have hbytes : (utteranceFile pcm' hfits').bytes = (utteranceFile pcm hfits).bytes :=
      Option.some.inj (haudio'.symm.trans haudio)
    rw [← drop_utteranceFile hfits', hbytes, drop_utteranceFile]

end Request

/-! ## A server that knows the contract -/

/-- The server decodes the audio of a request and answers with the text it finds for the frames. -/
def Understands (post : AsrRequest → Except String AsrResponse) (recognize : Bytes → String) : Prop :=
  ∀ request file frames, request.audio = some file → readPcm file = .ok frames →
    ∃ timing, post request = .ok ⟨200, some (.json [("text", .string (recognize frames))]), timing⟩

section Server

variable {u : Unicode} {post : AsrRequest → Except String AsrResponse} {recognize : Bytes → String}
  {client : SenseVoiceClient} {pcm : Bytes}

/-- `str.strip`. -/
def stripped (u : Unicode) (text : String) : String := String.ofList (PyFloat.strip u.isSpace text.toList)

theorem responseText_text (text : String) (timing : Option String) :
    responseText u ⟨200, some (.json [("text", .string text)]), timing⟩ = .ok (stripped u text) := by
  have hjson : Value.json [("text", .string text)] = .object [("text", .string text)] := rfl
  have hextract : extractText (.object [("text", .string text)]) = .ok text := by
    rw [extractText_object]
    rfl
  simp only [responseText, hjson, hextract]
  rfl

/-- The text of an utterance, over either protocol. -/
theorem transcribeDetailed_of_understands (u : Unicode) (clock : Readings) (h : Understands post recognize)
    (hs : client.Supported) (hfits : FitsWav pcm) :
    ∃ result, client.transcribeDetailed u post clock pcm = .ok result ∧
      result.text = stripped u (recognize (wholeFrames pcm)) := by
  obtain ⟨request, heq, haudio⟩ := requestOf_supported hs (utteranceFile pcm hfits).bytes
  obtain ⟨timing, hpost⟩ := h request _ _ haudio (readPcm_pcmFile _ _)
  have hresult : ∃ result, resultOf u clock pcm
      ⟨200, some (.json [("text", .string (recognize (wholeFrames pcm)))]), timing⟩ = .ok result ∧
        result.text = stripped u (recognize (wholeFrames pcm)) := by
    unfold resultOf
    rw [responseText_text]
    exact ⟨_, rfl, rfl⟩
  obtain ⟨result, hresult, htext⟩ := hresult
  refine ⟨result, ?_, htext⟩
  unfold SenseVoiceClient.transcribeDetailed
  rw [request_of_fits hfits, heq]
  change ((post request).mapError AsrException.transport >>= resultOf u clock pcm) = _
  rw [hpost]
  exact hresult

theorem wholeFrames_wholeFrames (pcm : Bytes) : wholeFrames (wholeFrames pcm) = wholeFrames pcm := by
  have hlen : (wholeFrames pcm).length = pcm.length / 2 * 2 := by
    rw [wholeFrames, List.length_take]
    omega
  rw [wholeFrames, hlen, Nat.mul_div_cancel _ (by norm_num), ← hlen, List.take_length]

/-- **The smoke test.** Of a WAV file in the expected format, with whatever other chunks, it prints what the
server finds for the frames, over either protocol; a blank text is an error, and of a file in another format
nothing is sent. -/
theorem smoke_recognizes (u : Unicode) (clock : Readings) (client : SenseVoiceClient)
    (h : Understands post recognize) (f : WaveFile) :
    client.smoke u post clock f.bytes =
      if f.format ≠ expectedFormat then .error (.wave (unexpected f.format))
      else if ¬ client.Supported then .error (.value ("Unsupported ASR_PROTOCOL: " ++ client.protocol))
      else if stripped u (recognize (wholeFrames f.data.data)) = "" then
        .error (.runtime "ASR returned an empty transcript")
      else .ok (stripped u (recognize (wholeFrames f.data.data))) := by
  unfold SenseVoiceClient.smoke
  rw [WaveFile.readPcm_bytes]
  by_cases hformat : f.format = expectedFormat
  · rw [if_pos hformat, if_neg (not_not_intro hformat)]
    change (client.transcribeDetailed u post clock (wholeFrames f.data.data) >>= fun result =>
      if result.text = "" then _ else Except.ok result.text) = _
    have hfits : FitsWav (wholeFrames f.data.data) := by
      have hdata := f.length_data_lt
      rw [FitsWav, wholeFrames, List.length_take]
      omega
    by_cases hs : client.Supported
    · obtain ⟨result, heq, htext⟩ := transcribeDetailed_of_understands u clock h hs hfits
      rw [if_neg (not_not_intro hs), heq, ← wholeFrames_wholeFrames, ← htext]
      rfl
    · rw [if_pos hs]
      unfold SenseVoiceClient.transcribeDetailed
      rw [request_of_fits hfits, requestOf_unsupported hs]
      rfl
  · rw [if_neg hformat, if_pos hformat]
    rfl

/-- A server that keeps to the contract. -/
def contractServer (recognize : Bytes → String) (request : AsrRequest) : Except String AsrResponse :=
  match (request.audio.map readPcm) with
  | some (.ok frames) => .ok ⟨200, some (.json [("text", .string (recognize frames))]), none⟩
  | _ => .ok ⟨400, none, none⟩

theorem understands_contractServer (recognize : Bytes → String) :
    Understands (contractServer recognize) recognize := by
  intro request file frames haudio hframes
  refine ⟨none, ?_⟩
  unfold contractServer
  rw [haudio, Option.map_some, hframes]

/-- A file of one frame and a byte, over JSON, to a server that finds how many bytes there are. -/
theorem smoke_recognizes_frame :
    SenseVoiceClient.smoke ⟨(· == ' '), fun _ => false, fun _ => none⟩
      (contractServer fun frames => " " ++ Nat.repr frames.length) ⟨0, 0, 0, 0, 0, 0, 0⟩ { url := "" }
      (pcmFile [1, 2, 3] 16000 (by decide) (by decide)).bytes = .ok "2" :=
  (smoke_recognizes _ _ _ (understands_contractServer _) _).trans (by decide +kernel)

end Server

end SenseVoice.Bridge
