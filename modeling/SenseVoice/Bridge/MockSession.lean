import SenseVoice.Json
import SenseVoice.Lib.Run
import SenseVoice.Text

/-!
# The mock session (`MockSession` in `bridge/bridge/main.py`)

Model of `_play` and `commit`: the task of `_play` with its locals, and a `commit` at any of its waits, the sleeps and
the calls of `emit`. A call of `commit` is one step: it awaits nothing before it has numbered its message.

* `emit` may raise in `_play`, which ends the task. `stop` cancels it; the session has left the table by then, so no
  `commit` comes later. `speak` emits other types and is left out.
* `log` has the calls of `emit`, with the line that a message of `_play` is of.

Results:
* `Numbered.step`: the numbers of the messages against the counter, in every interleaving;
* **`mock_finals_iff`**: finals are unique and each partial is followed by its own, exactly in the runs with no `commit`
  in a line whose partial is out and none in a line that goes on to its final.
-/

namespace SenseVoice.Bridge

open Lib

/-- `MockSession.LINES`. -/
def mockLines : List String := [
  "声网负责把浏览器的实时音频安全地送到内网桥接器。",
  "OminiX ASR 仍然运行在公司内网，不需要开放入站端口。",
  "这台 VPS 只负责会话控制和识别文本转发。"]

/-- The two messages of `_play` for a line, and the message of `commit`. -/
inductive MockMessage where
  | begins (line : String) (number seq : ℕ)
  | ends (line : String) (number seq : ℕ)
  | committed (number seq : ℕ)
deriving DecidableEq

namespace MockMessage

/-- The number in the `utteranceId`. -/
def number : MockMessage → ℕ
  | begins _ n _ | ends _ n _ | committed n _ => n

/-- The line a message is of. -/
def line : MockMessage → Option String
  | begins line _ _ | ends line _ _ => some line
  | committed _ _ => none

/-- The message is an `asr.final`; the others are `asr.partial`. -/
def isFinal : MockMessage → Bool
  | begins _ _ _ => false
  | ends _ _ _ | committed _ _ => true

/-- `f"{self.session_id}:mock-{number}"`. -/
def utteranceId (sessionId : String) (m : MockMessage) : String := sessionId ++ ":mock-" ++ Nat.repr m.number

/-- `line[: max(4, len(line) // 2)]`. -/
def beginning (line : String) : String := String.ofList (line.toList.take (max 4 (line.toList.length / 2)))

/-- `metrics`. -/
def metrics : Value := .json [
  ("schemaVersion", .number (.unsigned 1)),
  ("audio", .json [("durationMs", .number (.unsigned 2400)), ("boundaryReason", .string "mock")]),
  ("agora", .json [("networkTransportDelayMs", .number (.unsigned 48)),
    ("jitterBufferDelayMs", .number (.unsigned 22)), ("audioLossRatePercent", .number (.unsigned 0))]),
  ("bridge", .json [("endpointMs", .number (.unsigned 650)), ("asrRequestPrepareMs", .number (.unsigned 3)),
    ("asrHttpRoundTripMs", .number (.unsigned 420)), ("asrResponseParseMs", .number (.unsigned 1)),
    ("asrTotalMs", .number (.unsigned 424))]),
  ("asr", .json [("rtf", .number (.float (1767 / 10000)))]),
  ("mock", .bool true)]

/-- The payload. -/
def toValue (sessionId : String) (m : MockMessage) : Value :=
  match m with
  | begins line _ seq => .json [("type", .string "asr.partial"), ("sessionId", .string sessionId),
      ("utteranceId", .string (m.utteranceId sessionId)), ("seq", .number (.unsigned seq)),
      ("text", .string (beginning line))]
  | ends line _ seq => .json [("type", .string "asr.final"), ("sessionId", .string sessionId),
      ("utteranceId", .string (m.utteranceId sessionId)), ("seq", .number (.unsigned seq)),
      ("text", .string line), ("metrics", metrics)]
  | committed _ seq => .json [("type", .string "asr.final"), ("sessionId", .string sessionId),
      ("utteranceId", .string (m.utteranceId sessionId)), ("seq", .number (.unsigned seq)),
      ("text", .string "手动断句成功：端到端控制链路工作正常。")]

end MockMessage

/-- Where `_play` waits in a line: at its two sleeps, and for the two calls of `emit`. -/
inductive PlayStage where
  | beforePartial
  | sendingPartial
  | beforeFinal
  | sendingFinal
deriving DecidableEq

/-- The task of `_play`; `number` is that of its `utterance_id`. -/
inductive PlayPoint where
  | created (lines : List String)
  | playing (stage : PlayStage) (line : String) (rest : List String) (number : ℕ)
  /-- `emit` has raised. -/
  | broken (line : String) (number : ℕ)
  | finished
  | stopped

/-- `MockSession`. -/
structure MockSession where
  point : PlayPoint := .created mockLines
  index : ℕ := 0
  sequence : ℕ := 0
  log : List MockMessage := []

/-- What the event loop runs next; `raised` says whether the `emit` that `_play` waits for raises. -/
inductive MockEvent where
  | play (raised : Bool)
  | commit
  | stop

namespace MockSession

/-- The top of the loop over the lines. -/
def nextLine (lines : List String) (s : MockSession) : MockSession :=
  match lines with
  | [] => { s with point := .finished }
  | line :: rest => { s with point := .playing .beforePartial line rest (s.index + 1) }

/-- The task emits, and waits. -/
def emit (m : MockMessage) (point : PlayPoint) (s : MockSession) : MockSession :=
  { s with point := point, sequence := s.sequence + 1, log := s.log ++ [m] }

/-- `_play`, from where it waits. -/
def play (raised : Bool) (s : MockSession) : Option MockSession :=
  match s.point with
  | .created lines => some (s.nextLine lines)
  | .playing .beforePartial line rest n =>
    some (s.emit (.begins line n (s.sequence + 1)) (.playing .sendingPartial line rest n))
  | .playing .sendingPartial line rest n =>
    some { s with point := if raised then .broken line n else .playing .beforeFinal line rest n }
  | .playing .beforeFinal line rest n =>
    some (s.emit (.ends line n (s.sequence + 1)) (.playing .sendingFinal line rest n))
  | .playing .sendingFinal line rest n =>
    some (if raised then { s with point := .broken line n } else { s with index := s.index + 1 }.nextLine rest)
  | .broken _ _ | .finished | .stopped => none

/-- `commit`. -/
def commit (s : MockSession) : MockSession :=
  { s with
    index := s.index + 1
    sequence := s.sequence + 1
    log := s.log ++ [.committed (s.index + 1) (s.sequence + 1)] }

/-- **One step.** -/
def step (s : MockSession) (e : MockEvent) : Option MockSession :=
  match s.point, e with
  | .stopped, _ => none
  | _, .play raised => s.play raised
  | _, .commit => some s.commit
  | _, .stop => some { s with point := .stopped }

/-- The steps of a run of a new session. -/
abbrev trace (es : List MockEvent) : List (Run.Taken MockSession MockEvent) := Run.trace step {} es

abbrev final (es : List MockEvent) : MockSession := Run.final step {} es

abbrev states (es : List MockEvent) : List MockSession := Run.states step {} es

end MockSession

/-- The line that is being played, or was broken off, and its number. -/
def PlayPoint.current : PlayPoint → Option (String × ℕ)
  | playing _ line _ n | broken line n => some (line, n)
  | _ => none

/-- The same, once its partial has been emitted. -/
def PlayPoint.shown : PlayPoint → Option (String × ℕ)
  | playing .beforePartial _ _ _ => none
  | point => point.current

/-- Finals have different identifiers, and a final behind a partial with its identifier is of its line. -/
structure UniqueFinals (sessionId : String) (log : List MockMessage) : Prop where
  finals : log.Pairwise fun a b =>
    a.isFinal = true → b.isFinal = true → a.utteranceId sessionId ≠ b.utteranceId sessionId
  own : log.Pairwise fun a b =>
    a.isFinal = false → b.isFinal = true → b.utteranceId sessionId = a.utteranceId sessionId → b.line = a.line

/-- No `commit` takes the number of a line whose partial is out, and no line goes on to its final with a number that
the counter has passed. -/
def CounterKept (x : Run.Taken MockSession MockEvent) : Prop :=
  match x.event with
  | .commit => ∀ line n, x.before.point.shown = some (line, n) → n ≠ x.before.index + 1
  | .play _ => ∀ line rest n, x.before.point = .playing .beforeFinal line rest n → n = x.before.index + 1
  | .stop => True

namespace MockSession

variable {s t : MockSession}

/-! ## The numbers and the counter -/

/-- What holds in every interleaving: a line's number is at most the next one of the counter; the messages with that
number are of the line; and a line whose number the counter has passed was passed by a `commit` with this number. -/
structure Numbered (s : MockSession) : Prop where
  le : ∀ line n, s.point.current = some (line, n) → n ≤ s.index + 1
  past : s.point ≠ .stopped → ∀ m ∈ s.log, m.number ≤ s.index ∨
    ∃ line, s.point.shown = some (line, s.index + 1) ∧ m.number = s.index + 1 ∧ m.line = some line
  begun : ∀ line n, s.point.shown = some (line, n) → ∃ seq, .begins line n seq ∈ s.log
  overtaken : ∀ line n, s.point.current = some (line, n) → n ≤ s.index → ∃ seq, .committed n seq ∈ s.log
  unended : ∀ stage line rest n, s.point = .playing stage line rest n → stage ≠ .sendingFinal → n = s.index + 1 →
    ∀ m ∈ s.log, m.isFinal = true → m.number ≠ n

theorem Numbered.init : Numbered {} where
  le _ _ h := absurd h (by simp [PlayPoint.current])
  past _ _ h := absurd h List.not_mem_nil
  begun _ _ h := absurd h (by simp [PlayPoint.shown, PlayPoint.current])
  overtaken _ _ h := absurd h (by simp [PlayPoint.current])
  unended _ _ _ _ h := absurd h (by simp)

/-- A new line takes the next number. -/
theorem Numbered.nextLine (h : ∀ m ∈ s.log, m.number ≤ s.index) (lines : List String) :
    Numbered (s.nextLine lines) := by
  cases lines with
  | nil =>
    refine ⟨fun _ _ hc => ?_, fun _ m hm => Or.inl (h m hm), fun _ _ hs => ?_, fun _ _ hc => ?_,
      fun _ _ _ _ hp => ?_⟩
    · exact absurd hc (by simp [MockSession.nextLine, PlayPoint.current])
    · exact absurd hs (by simp [MockSession.nextLine, PlayPoint.shown, PlayPoint.current])
    · exact absurd hc (by simp [MockSession.nextLine, PlayPoint.current])
    · exact absurd hp (by simp [MockSession.nextLine])
  | cons line rest =>
    have hcurrent : ∀ line' n, (s.nextLine (line :: rest)).point.current = some (line', n) → n = s.index + 1 := by
      intro line' n hc
      exact (congrArg Prod.snd (Option.some.inj hc)).symm
    refine ⟨fun line' n hc => Nat.le_of_eq (hcurrent line' n hc), fun _ m hm => Or.inl (h m hm), fun _ _ hs => ?_,
      fun line' n hc hle => ?_, fun _ _ _ n hp _ _ m hm _ hnumber => ?_⟩
    · exact absurd hs (by simp [MockSession.nextLine, PlayPoint.shown])
    · have hn := hcurrent line' n hc
      exact absurd (hn ▸ hle) (Nat.not_succ_le_self _)
    · have hn := hcurrent _ n (by rw [hp]; rfl)
      have hle := h m hm
      omega

/-- `commit` takes the next number, which may be that of the line. -/
theorem Numbered.commit (h : Numbered s) (hpoint : s.point ≠ .stopped) : Numbered s.commit where
  le line n hc := Nat.le_succ_of_le (h.le line n hc)
  past _ m hm := by
    refine Or.inl ?_
    rcases List.mem_append.mp hm with hold | hnew
    · rcases h.past hpoint m hold with hle | ⟨line, -, heq, -⟩
      · exact Nat.le_succ_of_le hle
      · exact Nat.le_of_eq heq
    · rw [List.mem_singleton.mp hnew]
      exact Nat.le_refl _
  begun line n hs := by
    obtain ⟨seq, hseq⟩ := h.begun line n hs
    exact ⟨seq, List.mem_append_left _ hseq⟩
  overtaken line n hc hle := by
    rcases Nat.lt_or_ge s.index n with hgt | hle'
    · have hn : n = s.index + 1 := Nat.le_antisymm hle hgt
      exact ⟨_, List.mem_append_right _ (List.mem_singleton.mpr (by rw [hn]))⟩
    · obtain ⟨seq, hseq⟩ := h.overtaken line n hc hle'
      exact ⟨seq, List.mem_append_left _ hseq⟩
  unended stage line rest n hp _ hn := by
    have hle := h.le line n (by rw [show s.point = _ from hp]; rfl)
    change n = s.index + 1 + 1 at hn
    omega

/-- The point moves within the line, or the line is broken off. -/
theorem Numbered.move (h : Numbered s) {point : PlayPoint} (hcurrent : point.current = s.point.current)
    (hshown : point.shown = s.point.shown) (hstopped : s.point ≠ .stopped)
    (hended : ∀ stage line rest n, point = .playing stage line rest n → stage ≠ .sendingFinal →
      ∃ stage', s.point = .playing stage' line rest n ∧ stage' ≠ .sendingFinal) :
    Numbered { s with point := point } where
  le line n hc := h.le line n (hcurrent ▸ hc)
  past _ m hm := by
    rw [show ({ s with point := point } : MockSession).point.shown = s.point.shown from hshown]
    exact h.past hstopped m hm
  begun line n hs := h.begun line n (hshown ▸ hs)
  overtaken line n hc := h.overtaken line n (hcurrent ▸ hc)
  unended stage line rest n hp hstage := by
    obtain ⟨stage', hp', hstage'⟩ := hended stage line rest n hp hstage
    exact h.unended stage' line rest n hp' hstage'

/-- A message of the line, with its number. -/
theorem Numbered.emit (h : Numbered s) {line : String} {n : ℕ} {m : MockMessage} {point : PlayPoint}
    (hstopped : s.point ≠ .stopped) (hcurrent : s.point.current = some (line, n))
    (hshown : s.point.shown = none ∨ s.point.shown = some (line, n)) (hnumber : m.number = n)
    (hline : m.line = some line) (hcurrent' : point.current = some (line, n)) (hshown' : point.shown = some (line, n))
    (hbegun : ∃ seq, .begins line n seq ∈ s.log ++ [m])
    (hunended : ∀ stage line' rest k, point = .playing stage line' rest k → stage ≠ .sendingFinal → k = s.index + 1 →
      ∀ a ∈ s.log ++ [m], a.isFinal = true → a.number ≠ k) : Numbered (s.emit m point) := by
  have hn : n ≤ s.index + 1 := h.le line n hcurrent
  refine ⟨fun _ _ hc => ?_, fun _ a ha => ?_, fun _ _ hs => ?_, fun _ _ hc hle => ?_, hunended⟩
  · obtain ⟨rfl, rfl⟩ := Prod.mk.inj (Option.some.inj (hcurrent'.symm.trans hc))
    exact hn
  · rcases List.mem_append.mp ha with hold | hnew
    · rcases h.past hstopped a hold with hle | ⟨line', hs, hnext, hof⟩
      · exact Or.inl hle
      · rcases hshown with hnone | hsome
        · exact absurd (hnone.symm.trans hs) (by simp)
        · exact Or.inr ⟨line', (hshown'.trans hsome.symm).trans hs, hnext, hof⟩
    · obtain rfl := List.mem_singleton.mp hnew
      rcases Nat.le_succ_iff.mp hn with hle | rfl
      · exact Or.inl (hnumber ▸ hle)
      · exact Or.inr ⟨line, hshown', hnumber, hline⟩
  · obtain ⟨rfl, rfl⟩ := Prod.mk.inj (Option.some.inj (hshown'.symm.trans hs))
    exact hbegun
  · obtain ⟨rfl, rfl⟩ := Prod.mk.inj (Option.some.inj (hcurrent'.symm.trans hc))
    obtain ⟨seq, hseq⟩ := h.overtaken line n hcurrent hle
    exact ⟨seq, List.mem_append_left _ hseq⟩

/-- The partial of the line. -/
theorem Numbered.emitPartial (h : Numbered s) {line : String} {rest : List String} {n : ℕ}
    (hpoint : s.point = .playing .beforePartial line rest n) (seq : ℕ) :
    Numbered (s.emit (.begins line n seq) (.playing .sendingPartial line rest n)) := by
  refine h.emit (by simp [hpoint]) (by rw [hpoint]; rfl) (Or.inl (by rw [hpoint]; rfl)) rfl rfl rfl rfl
    ⟨seq, List.mem_append_right _ List.mem_cons_self⟩ fun _ _ _ k hp _ hk m hm hfinal => ?_
  obtain ⟨-, -, -, rfl⟩ := PlayPoint.playing.inj hp
  rcases List.mem_append.mp hm with hold | hnew
  · exact h.unended _ _ _ _ hpoint (by simp) hk m hold hfinal
  · rw [List.mem_singleton.mp hnew] at hfinal
    exact absurd hfinal Bool.false_ne_true

/-- The final of the line. -/
theorem Numbered.emitFinal (h : Numbered s) {line : String} {rest : List String} {n : ℕ}
    (hpoint : s.point = .playing .beforeFinal line rest n) (seq : ℕ) :
    Numbered (s.emit (.ends line n seq) (.playing .sendingFinal line rest n)) := by
  have hshown : s.point.shown = some (line, n) := by rw [hpoint]; rfl
  obtain ⟨seq', hseq⟩ := h.begun line n hshown
  refine h.emit (by simp [hpoint]) (by rw [hpoint]; rfl) (Or.inr hshown) rfl rfl rfl rfl
    ⟨seq', List.mem_append_left _ hseq⟩ fun _ _ _ k hp hstage => ?_
  obtain ⟨rfl, -⟩ := PlayPoint.playing.inj hp
  exact absurd rfl hstage

theorem Numbered.play (h : Numbered s) {raised : Bool} (hstep : s.play raised = some t) : Numbered t := by
  unfold MockSession.play at hstep
  split at hstep
  · rename_i lines hpoint
    obtain rfl := Option.some.inj hstep
    refine Numbered.nextLine (fun m hm => ?_) lines
    rcases h.past (by simp [hpoint]) m hm with hle | ⟨_, hshown, -⟩
    · exact hle
    · exact absurd hshown (by simp [hpoint, PlayPoint.shown, PlayPoint.current])
  · rename_i line rest n hpoint
    obtain rfl := Option.some.inj hstep
    exact h.emitPartial hpoint _
  · rename_i line rest n hpoint
    obtain rfl := Option.some.inj hstep
    refine h.move ?_ ?_ (by simp [hpoint]) fun stage line' rest' n' hp hstage => ?_
    · rw [hpoint]
      split <;> rfl
    · rw [hpoint]
      split <;> rfl
    · split at hp
      · exact absurd hp (by simp)
      · obtain ⟨-, rfl, rfl, rfl⟩ := PlayPoint.playing.inj hp
        exact ⟨_, hpoint, by simp⟩
  · rename_i line rest n hpoint
    obtain rfl := Option.some.inj hstep
    exact h.emitFinal hpoint _
  · rename_i line rest n hpoint
    obtain rfl := Option.some.inj hstep
    split
    · refine h.move ?_ ?_ (by simp [hpoint]) fun stage line' rest' n' hp _ => absurd hp (by simp)
      · rw [hpoint]
        rfl
      · rw [hpoint]
        rfl
    · -- The counter goes up behind the line.
      refine Numbered.nextLine (fun m hm => ?_) rest
      rcases h.past (by simp [hpoint]) m hm with hle | ⟨_, -, hnumber, -⟩
      · exact Nat.le_succ_of_le hle
      · exact Nat.le_of_eq hnumber
  · exact absurd hstep (by simp)
  · exact absurd hstep (by simp)
  · exact absurd hstep (by simp)

theorem step_eq_some {e : MockEvent} (h : s.step e = some t) :
    s.point ≠ .stopped ∧
      ((∃ raised, e = .play raised ∧ s.play raised = some t) ∨ e = .commit ∧ t = s.commit ∨
        e = .stop ∧ t = { s with point := .stopped }) := by
  unfold MockSession.step at h
  split at h
  · exact absurd h (by simp)
  · rename_i raised hpoint
    exact ⟨hpoint, Or.inl ⟨raised, rfl, h⟩⟩
  · rename_i hpoint
    exact ⟨hpoint, Or.inr (Or.inl ⟨rfl, (Option.some.inj h).symm⟩)⟩
  · rename_i hpoint
    exact ⟨hpoint, Or.inr (Or.inr ⟨rfl, (Option.some.inj h).symm⟩)⟩

/-- **Step.** Every step keeps the numbers. -/
theorem Numbered.step (h : Numbered s) {e : MockEvent} (hstep : s.step e = some t) : Numbered t := by
  obtain ⟨hpoint, ⟨raised, rfl, hplay⟩ | ⟨rfl, rfl⟩ | ⟨rfl, rfl⟩⟩ := step_eq_some hstep
  · exact h.play hplay
  · exact h.commit hpoint
  · refine ⟨fun _ _ hc => ?_, fun hne => absurd rfl hne, fun _ _ hs => ?_, fun _ _ hc => ?_, fun _ _ _ _ hp => ?_⟩
    · exact absurd hc (by simp [PlayPoint.current])
    · exact absurd hs (by simp [PlayPoint.shown, PlayPoint.current])
    · exact absurd hc (by simp [PlayPoint.current])
    · exact absurd hp (by simp)

/-! ## Finals and partials -/

variable {sessionId : String}

theorem utteranceId_eq_iff {a b : MockMessage} :
    a.utteranceId sessionId = b.utteranceId sessionId ↔ a.number = b.number :=
  ⟨fun h => Text.append_repr_injective h, fun h => by rw [MockMessage.utteranceId, h]; rfl⟩

/-- What `UniqueFinals` says of an earlier and a later message. -/
def Compatible (a b : MockMessage) : Prop :=
  (a.isFinal = true → b.isFinal = true → a.number ≠ b.number) ∧
    (a.isFinal = false → b.isFinal = true → b.number = a.number → b.line = a.line)

theorem uniqueFinals_iff {log : List MockMessage} : UniqueFinals sessionId log ↔ log.Pairwise Compatible := by
  constructor
  · intro h
    refine (h.finals.and h.own).imp fun {a b} hab => ⟨fun ha hb hnumber => ?_, fun ha hb hnumber => ?_⟩
    · exact hab.1 ha hb (utteranceId_eq_iff.mpr hnumber)
    · exact hab.2 ha hb (utteranceId_eq_iff.mpr hnumber)
  · intro h
    refine ⟨h.imp fun {a b} hab ha hb hid => ?_, h.imp fun {a b} hab ha hb hid => ?_⟩
    · exact hab.1 ha hb (utteranceId_eq_iff.mp hid)
    · exact hab.2 ha hb (utteranceId_eq_iff.mp hid)

theorem pairwise_concat {log : List MockMessage} (h : log.Pairwise Compatible) (m : MockMessage) :
    (log ++ [m]).Pairwise Compatible ↔ ∀ a ∈ log, Compatible a m := by
  rw [List.pairwise_append]
  simp [h]

/-- The message of `commit` is compatible exactly if no line's partial is out under its number. -/
theorem compatible_commit (h : Numbered s) (hpoint : s.point ≠ .stopped) (seq : ℕ) :
    (∀ a ∈ s.log, Compatible a (.committed (s.index + 1) seq)) ↔
      ∀ line n, s.point.shown = some (line, n) → n ≠ s.index + 1 := by
  constructor
  · rintro hall line n hshown rfl
    obtain ⟨seq', hbegun⟩ := h.begun line _ hshown
    exact absurd ((hall _ hbegun).2 rfl rfl rfl) (by simp [MockMessage.line])
  · intro hshown a ha
    have hne : a.number ≠ s.index + 1 := by
      rcases h.past hpoint a ha with hle | ⟨line, hline, -⟩
      · omega
      · exact absurd rfl (hshown line _ hline)
    exact ⟨fun _ _ => hne, fun _ _ hnumber => absurd hnumber.symm hne⟩

/-- The final of a line is compatible exactly if the counter has not passed its number. -/
theorem compatible_final (h : Numbered s) {line : String} {rest : List String} {n : ℕ}
    (hpoint : s.point = .playing .beforeFinal line rest n) (seq : ℕ) :
    (∀ a ∈ s.log, Compatible a (.ends line n seq)) ↔ n = s.index + 1 := by
  have hcurrent : s.point.current = some (line, n) := by rw [hpoint]; rfl
  constructor
  · intro hall
    by_contra hne
    have hle := h.le line n hcurrent
    obtain ⟨seq', hcommitted⟩ := h.overtaken line n hcurrent (by omega)
    exact (hall _ hcommitted).1 rfl rfl rfl
  · intro hn a ha
    refine ⟨fun hfinal _ => h.unended _ _ _ _ hpoint (by simp) hn a ha hfinal, fun _ _ hnumber => ?_⟩
    change n = a.number at hnumber
    rcases h.past (by simp [hpoint]) a ha with hle | ⟨line', hshown, -, hline⟩
    · omega
    · rw [hpoint] at hshown
      obtain ⟨rfl, -⟩ := Prod.mk.inj (Option.some.inj hshown)
      exact hline.symm

/-- **Step.** From unique finals, a step leads to unique finals exactly if it keeps to the counter. -/
theorem uniqueFinals_step (h : Numbered s) (hunique : UniqueFinals sessionId s.log) {e : MockEvent}
    (hstep : s.step e = some t) : UniqueFinals sessionId t.log ↔ CounterKept ⟨s, e, t⟩ := by
  have hpairs := uniqueFinals_iff.mp hunique
  rw [uniqueFinals_iff]
  obtain ⟨hpoint, ⟨raised, rfl, hplay⟩ | ⟨rfl, rfl⟩ | ⟨rfl, rfl⟩⟩ := step_eq_some hstep
  · change _ ↔ ∀ line rest n, s.point = .playing .beforeFinal line rest n → n = s.index + 1
    have hsame : t.log = s.log → (∀ line rest n, s.point ≠ .playing .beforeFinal line rest n) →
        (t.log.Pairwise Compatible ↔ ∀ line rest n, s.point = .playing .beforeFinal line rest n → n = s.index + 1) :=
      fun hlog hother => iff_of_true (hlog ▸ hpairs) fun line rest n hp => absurd hp (hother line rest n)
    unfold MockSession.play at hplay
    split at hplay
    · rename_i lines hp
      obtain rfl := Option.some.inj hplay
      refine hsame ?_ fun _ _ _ => by simp [hp]
      cases lines <;> rfl
    · rename_i line rest n hp
      obtain rfl := Option.some.inj hplay
      refine iff_of_true ?_ fun _ _ _ hp' => absurd hp' (by simp [hp])
      refine (pairwise_concat hpairs _).mpr fun a _ => ⟨fun _ hfinal => ?_, fun _ hfinal => ?_⟩
      · exact absurd hfinal Bool.false_ne_true
      · exact absurd hfinal Bool.false_ne_true
    · rename_i line rest n hp
      obtain rfl := Option.some.inj hplay
      exact hsame rfl fun _ _ _ => by simp [hp]
    · rename_i line rest n hp
      obtain rfl := Option.some.inj hplay
      refine (pairwise_concat hpairs _).trans ((compatible_final h hp _).trans ?_)
      constructor
      · intro hn line' rest' n' hp'
        rw [hp] at hp'
        obtain ⟨-, -, -, rfl⟩ := PlayPoint.playing.inj hp'
        exact hn
      · exact fun hall => hall line rest n hp
    · rename_i line rest n hp
      obtain rfl := Option.some.inj hplay
      refine hsame ?_ fun _ _ _ => by simp [hp]
      split
      · rfl
      · cases rest <;> rfl
    · exact absurd hplay (by simp)
    · exact absurd hplay (by simp)
    · exact absurd hplay (by simp)
  · exact (pairwise_concat hpairs _).trans (compatible_commit h hpoint _)
  · exact iff_of_true hpairs trivial

/-! ## Every run -/

/-- **The mock stream has unique finals, and each partial is followed by its own, exactly if every step keeps to the
counter**, for every interleaving of `_play` with calls of `commit`. -/
theorem mock_finals_iff (sessionId : String) (es : List MockEvent) :
    (∀ s ∈ states es, UniqueFinals sessionId s.log) ↔ ∀ x ∈ trace es, CounterKept x := by
  have hnumbered : ∀ x ∈ trace es, Numbered x.before :=
    Run.before_of_trace Numbered.init fun x hx h => h.step (Run.mem_trace hx).2
  exact Run.states_iff_trace (P := fun s => UniqueFinals sessionId s.log) ⟨List.Pairwise.nil, List.Pairwise.nil⟩
    fun x hx hunique => uniqueFinals_step (hnumbered x hx) hunique (Run.mem_trace hx).2

/-- A `commit` during the first sleep. -/
theorem commit_repeats_final :
    (final [.play false, .commit, .play false, .play false, .play false]).log =
        [.committed 1 1, .begins (mockLines.getD 0 "") 1 2, .ends (mockLines.getD 0 "") 1 3] ∧
      ¬ UniqueFinals "s" (final [.play false, .commit, .play false, .play false, .play false]).log := by
  refine ⟨rfl, fun h => ?_⟩
  have hpairs := (List.pairwise_cons.mp h.finals).1
  exact hpairs (.ends (mockLines.getD 0 "") 1 3) (List.mem_cons_of_mem _ List.mem_cons_self) rfl rfl rfl

end MockSession

end SenseVoice.Bridge
