import SenseVoice.Bridge.BargeIn

/-!
# One `_speak`, over any receiver

`Speaking.lean` has the session with its requests, over a `LivekitReceiver`. Here one `_speak` runs on its own
with its producer, over a receiver that is a parameter: both receivers fit, and the answers of `push_pcm` may
come in any order. Whoever cancels the task, and whatever changes the receiver between two steps, is an event.

The two are the same code: `simulates` maps every step of a session to a step of the `_speak` that runs in it,
and `playout_of_session` whole runs.
-/

namespace SenseVoice.Bridge

open Lib

/-- What `_speak` calls of a receiver; the first argument is the number of the request. -/
structure AudioReceiver (ρ : Type) where
  pushPcm : ℕ → Pcm → ℕ → ℕ → ρ → ρ × Bool
  clearAudioBuffer : ρ → ρ

/-- A `LivekitReceiver`. -/
def AudioReceiver.livekit : AudioReceiver LivekitReceiver where
  pushPcm := LivekitReceiver.pushPcm
  clearAudioBuffer := LivekitReceiver.clearAudioBuffer

/-- One `_speak`: its task, its locals, the receiver, and what it pushed and emitted. -/
structure Playout (ρ : Type) where
  request : ℕ
  text : String
  receiver : ρ
  pc : SpeakPc := .created
  cancelling : Bool := false
  stream : TtsStream := {}
  log : List SpeechEntry := []

/-- What the event loop runs next. -/
inductive PlayoutEvent (ρ : Type) where
  | run (raised : Option String) (late : ℕ)
  | cancel
  | produce
  | chunk (pcm : Pcm)
  | ends (exit : Exit)
  /-- The receiver changes by itself, or another user changes it. -/
  | receiver (r : ρ)

namespace Playout

variable {ρ : Type} (rx : AudioReceiver ρ)

/-- `task.done()`. -/
def isDone (s : Playout ρ) : Bool :=
  match s.pc with
  | .done _ => true
  | _ => false

/-- The task goes on to its next wait. -/
def await (pc : SpeakPc) (s : Playout ρ) : Playout ρ := { s with pc := pc, cancelling := false }

/-- The call of `emit`. -/
def emit (m : SpeechMessage) (s : Playout ρ) : Playout ρ := { s with log := s.log ++ [.emit s.request m] }

def setPending (pending : Pcm) (s : Playout ρ) : Playout ρ :=
  { s with stream := { s.stream with pending := pending } }

/-- `producer` becomes what it is after a step of the task. -/
def setProducer (producer : Producer) (s : Playout ρ) : Playout ρ :=
  { s with stream := { s.stream with producer := producer } }

/-- `self.receiver.push_pcm(frame, TTS_TARGET_RATE, 1)`, with what it returns. -/
def push (frame : Pcm) (s : Playout ρ) : Playout ρ × Bool :=
  let out := rx.pushPcm s.request frame ttsTargetRate 1 s.receiver
  ({ s with receiver := out.1, log := s.log ++ [.push ⟨s.request, frame, out.2⟩] }, out.2)

/-- The next frame is pushed. -/
def pushFrame (s : Playout ρ) : Playout ρ × Bool :=
  (s.setPending (s.stream.pending.drop frameBytes)).push rx (s.stream.pending.take frameBytes)

/-- What is left is pushed, filled up to a frame; what `push_pcm` returns is not looked at. -/
def pushRest (s : Playout ρ) : Playout ρ :=
  if s.stream.pending = [] then s
  else ((s.setPending []).push rx (ljust frameBytes 0 s.stream.pending)).1

/-- What follows the `finally` when the block was left so. -/
def handleExit (exit : Exit) (s : Playout ρ) : Playout ρ :=
  match exit with
  | .returned => s.await (.done .returned)
  | .cancelled => { s with receiver := rx.clearAudioBuffer s.receiver }.await (.done .cancelled)
  | .raised exc => (s.emit (.error exc)).await .failing

/-- The block is left: the `finally`. -/
def leave (exit : Exit) (s : Playout ρ) : Playout ρ :=
  if s.stream.producer.active then
    (s.setProducer s.stream.producer.cancel).await (.unwinding exit)
  else s.handleExit rx exit

/-- The loop, from the top of an iteration to its next wait, with `late` frames already due. A frame that is
refused leaves the loop as its end does. -/
def loop (late : ℕ) (started : Bool) (s : Playout ρ) : Playout ρ :=
  match s.stream.iteration started with
  | .fail exc => s.leave rx (.raised exc)
  | .wait => s.await .waiting
  | .rest => (s.pushRest rx).await .draining
  | .frame =>
    match late with
    | 0 => s.await .pacing
    | late + 1 =>
      if (s.pushFrame rx).2 then loop late true (s.pushFrame rx).1
      else (s.pushFrame rx).1.await .draining

/-- `CancelledError` where the task waits. -/
def interrupt (s : Playout ρ) : Option (Playout ρ) :=
  match s.pc with
  | .created | .announcing | .failing => some (s.await (.done .cancelled))
  | .waiting | .pacing | .draining | .finishing => some (s.leave rx .cancelled)
  | .unwinding exit => if s.stream.producer.active then none else some (s.handleExit rx exit)
  | .done _ => none

/-- `_speak`, from where it waits; `raised` is what a call of `emit` it waits for has raised. -/
def resume (raised : Option String) (late : ℕ) (s : Playout ρ) : Option (Playout ρ) :=
  match s.pc, raised with
  | .created, _ => some ((s.emit (.started s.text.length)).await .announcing)
  | .announcing, some exc => some (s.await (.done (.raised exc)))
  | .announcing, none => some ((s.setProducer .created).loop rx late false)
  | .waiting, _ => some (s.loop rx late false)
  | .pacing, _ =>
    some (if (s.pushFrame rx).2 then (s.pushFrame rx).1.loop rx late true
      else (s.pushFrame rx).1.await .draining)
  | .draining, _ => some ((s.emit .finished).await .finishing)
  | .finishing, some exc => some (s.leave rx (.raised exc))
  | .finishing, none => some (s.leave rx .returned)
  | .unwinding exit, _ => if s.stream.producer.active then none else some (s.handleExit rx exit)
  | .failing, some exc => some (s.await (.done (.raised exc)))
  | .failing, none => some (s.await (.done .returned))
  | .done _, _ => none

/-- The task runs. -/
def run (raised : Option String) (late : ℕ) (s : Playout ρ) : Option (Playout ρ) :=
  if s.cancelling then s.interrupt rx else s.resume rx raised late

/-- **One step** of a `_speak`. -/
def step (s : Playout ρ) (e : PlayoutEvent ρ) : Option (Playout ρ) :=
  match e with
  | .run raised late => s.run rx raised late
  | .cancel => if s.isDone then none else some { s with cancelling := true }
  | .produce => s.stream.produce.map fun st => { s with stream := st }
  | .chunk pcm => (s.stream.chunk pcm).map fun st => { s with stream := st }
  | .ends exit => (s.stream.ends exit).map fun st => { s with stream := st }
  | .receiver r => some { s with receiver := r }

/-- A `_speak` that has not begun. -/
def start (request : ℕ) (text : String) (r : ρ) : Playout ρ := { request := request, text := text, receiver := r }

/-- What a run of it leaves. -/
def after (s : Playout ρ) (es : List (PlayoutEvent ρ)) : Playout ρ := Run.final (step rx) s es

end Playout

/-! ## The `_speak` that runs in a session -/

/-- The request that an entry of the log is of. -/
def SpeechEntry.request : SpeechEntry → ℕ
  | .push p => p.request
  | .emit k _ => k

/-- The current task of the session is this `_speak`, which takes a TTS client. -/
structure Shows (s : Speaking) (p : Playout LivekitReceiver) : Prop where
  tts : s.tts = true
  task : s.tasks p.request = some ⟨p.text, p.pc, p.cancelling⟩
  current : s.current = p.request
  stream : s.streams p.request = p.stream
  receiver : s.receiver = p.receiver
  log : ∃ old, s.log = old ++ p.log ∧ ∀ x ∈ old, x.request < p.request
  mine : ∀ x ∈ p.log, x.request = p.request

namespace Shows

open AudioReceiver (livekit)

variable {s t : Speaking} {p : Playout LivekitReceiver}

/-- Both logs go on with an entry. -/
theorem log_concat (h : Shows s p) {x y : SpeechEntry} (hxy : x = y) :
    ∃ old, s.log ++ [x] = old ++ (p.log ++ [y]) ∧ ∀ z ∈ old, z.request < p.request := by
  obtain ⟨old, hlog, hold⟩ := h.log
  exact ⟨old, by rw [hlog, hxy, List.append_assoc], hold⟩

theorem mine_concat (h : Shows s p) {x : SpeechEntry} (hx : x.request = p.request) :
    ∀ y ∈ p.log ++ [x], y.request = p.request := by
  intro y hy
  rcases List.mem_append.mp hy with hy | hy
  · exact h.mine y hy
  · rw [List.mem_singleton.mp hy, hx]

theorem await (h : Shows s p) (pc : SpeakPc) : Shows (s.await p.request pc) (p.await pc) where
  tts := h.tts
  task := by simp [Speaking.await, Speaking.setTask, Playout.await, h.task]
  current := h.current
  stream := h.stream
  receiver := h.receiver
  log := h.log
  mine := h.mine

theorem emit (h : Shows s p) (m : SpeechMessage) : Shows (s.emit p.request m) (p.emit m) where
  tts := h.tts
  task := h.task
  current := h.current
  stream := h.stream
  receiver := h.receiver
  log := h.log_concat rfl
  mine := h.mine_concat rfl

theorem setPending (h : Shows s p) (pending : Pcm) : Shows (s.setPending p.request pending) (p.setPending pending) where
  tts := h.tts
  task := h.task
  current := h.current
  stream := (Speaking.stream_setPending pending s).trans (by rw [h.stream, Playout.setPending])
  receiver := h.receiver
  log := h.log
  mine := h.mine

theorem setProducer (h : Shows s p) (producer : Producer) :
    Shows (s.setProducer p.request producer) (p.setProducer producer) where
  tts := h.tts
  task := h.task
  current := h.current
  stream := (Speaking.stream_setProducer producer s).trans (by rw [h.stream, Playout.setProducer])
  receiver := h.receiver
  log := h.log
  mine := h.mine

theorem clear (h : Shows s p) : Shows { s with receiver := s.receiver.clearAudioBuffer }
    { p with receiver := livekit.clearAudioBuffer p.receiver } where
  tts := h.tts
  task := h.task
  current := h.current
  stream := h.stream
  receiver := by simp only [h.receiver]; rfl
  log := h.log
  mine := h.mine

/-- A push is answered the same. -/
theorem push (h : Shows s p) (frame : Pcm) :
    Shows (s.push p.request frame).1 (p.push livekit frame).1 ∧
      (s.push p.request frame).2 = (p.push livekit frame).2 := by
  have hout : s.receiver.pushPcm p.request frame ttsTargetRate 1 =
      livekit.pushPcm p.request frame ttsTargetRate 1 p.receiver := by
    rw [h.receiver]
    rfl
  unfold Speaking.push Playout.push
  dsimp only
  rw [hout]
  exact ⟨⟨h.tts, h.task, h.current, h.stream, rfl, h.log_concat rfl, h.mine_concat rfl⟩, rfl⟩

theorem pushFrame (h : Shows s p) :
    Shows (s.pushFrame p.request).1 (p.pushFrame livekit).1 ∧
      (s.pushFrame p.request).2 = (p.pushFrame livekit).2 := by
  unfold Speaking.pushFrame Playout.pushFrame
  rw [h.stream]
  exact (h.setPending _).push _

theorem pushRest (h : Shows s p) : Shows (s.pushRest p.request) (p.pushRest livekit) := by
  unfold Speaking.pushRest Playout.pushRest
  rw [h.stream]
  split
  · exact h
  · exact ((h.setPending []).push _).1

/-- The rest is pushed, and the task waits. -/
theorem draining (h : Shows s p) :
    Shows ((s.pushRest p.request).await p.request .draining) ((p.pushRest livekit).await .draining) := by
  have hrequest : (p.pushRest livekit).request = p.request := by
    unfold Playout.pushRest
    split <;> rfl
  have hawait := h.pushRest.await .draining
  rwa [hrequest] at hawait

theorem handleExit (h : Shows s p) (exit : Exit) : Shows (s.handleExit p.request exit) (p.handleExit livekit exit) := by
  cases exit with
  | returned => exact h.await _
  | cancelled => exact h.clear.await _
  | raised exc => exact (h.emit _).await _

theorem leave (h : Shows s p) (exit : Exit) : Shows (s.leave p.request exit) (p.leave livekit exit) := by
  unfold Speaking.leave Playout.leave
  rw [h.stream]
  split
  · exact (h.setProducer _).await _
  · exact h.handleExit exit

/-- By induction on the frames that are late. -/
theorem loop (h : Shows s p) (late : ℕ) (started : Bool) :
    Shows (s.loop p.request late started) (p.loop livekit late started) := by
  induction late generalizing started s p with
  | zero =>
    unfold Speaking.loop Playout.loop
    rw [h.stream]
    cases p.stream.iteration started with
    | fail exc => exact h.leave _
    | wait => exact h.await _
    | rest => exact h.draining
    | frame => exact h.await _
  | succ late ih =>
    obtain ⟨hpush, hanswer⟩ := h.pushFrame
    unfold Speaking.loop Playout.loop
    rw [h.stream]
    cases p.stream.iteration started with
    | fail exc => exact h.leave _
    | wait => exact h.await _
    | rest => exact h.draining
    | frame =>
      dsimp only
      rw [hanswer]
      split
      · exact ih hpush true
      · exact hpush.await _

theorem interrupt (h : Shows s p) (ht : s.interrupt p.request p.pc = some t) :
    ∃ q, p.interrupt livekit = some q ∧ Shows t q := by
  unfold Playout.interrupt
  cases hpc : p.pc with
  | created | announcing | failing =>
    rw [hpc] at ht
    obtain rfl := Option.some.inj ht
    exact ⟨_, rfl, h.await _⟩
  | waiting | pacing | draining | finishing =>
    rw [hpc] at ht
    obtain rfl := Option.some.inj ht
    exact ⟨_, rfl, h.leave _⟩
  | unwinding exit =>
    rw [hpc] at ht
    simp only [Speaking.interrupt, h.stream] at ht
    dsimp only
    split at ht
    · exact absurd ht (by simp)
    · obtain rfl := Option.some.inj ht
      rw [if_neg ‹_›]
      exact ⟨_, rfl, h.handleExit exit⟩
  | done result =>
    rw [hpc] at ht
    exact absurd ht (by simp [Speaking.interrupt])

theorem resume (h : Shows s p) {raised : Option String} {late : ℕ}
    (ht : s.resume p.request p.text p.pc raised late = some t) :
    ∃ q, p.resume livekit raised late = some q ∧ Shows t q := by
  unfold Playout.resume
  cases hpc : p.pc with
  | created =>
    rw [hpc] at ht
    obtain rfl := Option.some.inj ht
    exact ⟨_, rfl, (h.emit _).await _⟩
  | announcing =>
    rw [hpc] at ht
    cases raised with
    | none =>
      obtain rfl := Option.some.inj ht
      exact ⟨_, rfl, (h.setProducer .created).loop late false⟩
    | some exc =>
      obtain rfl := Option.some.inj ht
      exact ⟨_, rfl, h.await _⟩
  | waiting =>
    rw [hpc] at ht
    obtain rfl := Option.some.inj ht
    exact ⟨_, rfl, h.loop late false⟩
  | pacing =>
    rw [hpc] at ht
    obtain rfl := Option.some.inj ht
    obtain ⟨hpush, hanswer⟩ := h.pushFrame
    refine ⟨_, rfl, ?_⟩
    rw [hanswer]
    split
    · exact hpush.loop late true
    · exact hpush.await _
  | draining =>
    rw [hpc] at ht
    obtain rfl := Option.some.inj ht
    exact ⟨_, rfl, (h.emit _).await _⟩
  | finishing =>
    rw [hpc] at ht
    cases raised with
    | none =>
      obtain rfl := Option.some.inj ht
      exact ⟨_, rfl, h.leave _⟩
    | some exc =>
      obtain rfl := Option.some.inj ht
      exact ⟨_, rfl, h.leave _⟩
  | unwinding exit =>
    rw [hpc] at ht
    simp only [Speaking.resume, h.stream] at ht
    dsimp only
    split at ht
    · exact absurd ht (by simp)
    · obtain rfl := Option.some.inj ht
      rw [if_neg ‹_›]
      exact ⟨_, rfl, h.handleExit exit⟩
  | failing =>
    rw [hpc] at ht
    cases raised with
    | none =>
      obtain rfl := Option.some.inj ht
      exact ⟨_, rfl, h.await _⟩
    | some exc =>
      obtain rfl := Option.some.inj ht
      exact ⟨_, rfl, h.await _⟩
  | done result =>
    rw [hpc] at ht
    exact absurd ht (by simp [Speaking.resume])

theorem run (h : Shows s p) {raised : Option String} {late : ℕ} (ht : s.run p.request raised late = some t) :
    ∃ q, p.run livekit raised late = some q ∧ Shows t q := by
  unfold Speaking.run at ht
  rw [h.task, Option.bind_some] at ht
  unfold Playout.run
  cases hcancel : p.cancelling with
  | true =>
    rw [hcancel, if_pos rfl] at ht
    exact h.interrupt ht
  | false =>
    rw [hcancel, if_neg (by simp)] at ht
    exact h.resume ht

/-- The receiver changes on both sides. -/
theorem receive (h : Shows s p) (r : LivekitReceiver) : Shows { s with receiver := r } { p with receiver := r } :=
  ⟨h.tts, h.task, h.current, h.stream, rfl, h.log, h.mine⟩

/-- A producer moves: the one of this `_speak`, or another one. -/
theorem move (h : Shows s p) (k : ℕ) {st : TtsStream} {f : TtsStream → Option TtsStream}
    (hst : f (s.streams k) = some st) :
    Shows (s.setStream k st) p ∨ f p.stream = some st ∧ Shows (s.setStream k st) { p with stream := st } := by
  by_cases hk : k = p.request
  · have hmine : s.streams k = p.stream := by
      rw [hk]
      exact h.stream
    refine Or.inr ⟨hmine ▸ hst, ⟨h.tts, h.task, h.current, ?_, h.receiver, h.log, h.mine⟩⟩
    rw [hk]
    exact Function.update_self _ _ _
  · refine Or.inl ⟨h.tts, h.task, h.current, ?_, h.receiver, h.log, h.mine⟩
    exact (Function.update_of_ne (Ne.symm hk) _ _).trans h.stream

/-- Nothing in the log is of a later request. -/
theorem log_le (h : Shows s p) : ∀ x ∈ s.log, x.request ≤ s.current := by
  obtain ⟨old, hlog, hold⟩ := h.log
  have hcurrent := h.current
  intro x hx
  rw [hlog] at hx
  rcases List.mem_append.mp hx with hx | hx
  · have := hold x hx
    omega
  · have := h.mine x hx
    omega

/-- A new task. -/
theorem createTask (htts : s.tts = true) (hfuture : ∀ k, s.current < k → s.streams k = {})
    (hlog : ∀ x ∈ s.log, x.request ≤ s.current) (text : String) :
    Shows (s.createTask text) (Playout.start (s.current + 1) text s.receiver) where
  tts := htts
  task := Function.update_self _ _ _
  current := rfl
  stream := hfuture _ (Nat.lt_succ_self _)
  receiver := rfl
  log := ⟨s.log, (List.append_nil _).symm, fun x hx => Nat.lt_succ_of_le (hlog x hx)⟩
  mine := fun _ hx => absurd hx List.not_mem_nil

end Shows

/-! ## Sessions -/

open AudioReceiver (livekit)

variable {s t : Speaking} {p : Playout LivekitReceiver}

/-- **Simulation.** A step of a session leaves the `_speak` that runs in it alone, or is a step of it, or is the
beginning of the next one. -/
theorem simulates (hsound : Speaking.Sound s) (h : Shows s p) {e : SpeakEvent} (ht : s.step e = some t) :
    Shows t p ∨ (∃ e' q, p.step livekit e' = some q ∧ Shows t q) ∨
      ∃ text, Shows t (Playout.start t.current text t.receiver) := by
  have hfuture : ∀ k, s.current < k → s.streams k = {} := fun k hk => (hsound.future k hk).1
  have htask : s.ttsTask = some ⟨p.text, p.pc, p.cancelling⟩ := by
    rw [Speaking.ttsTask, h.current]
    exact h.task
  cases e with
  | request text =>
    simp only [Speaking.step, Speaking.request] at ht
    split_ifs at ht with hcall hno hempty
    · exact absurd h.tts (by simp [hno])
    · obtain rfl := Option.some.inj ht
      exact Or.inl h
    · rw [htask] at ht
      dsimp only at ht
      split at ht
      · obtain rfl := Option.some.inj ht
        exact Or.inr (Or.inr ⟨strip text, Shows.createTask h.tts hfuture h.log_le _⟩)
      · rename_i hrunning
        obtain rfl := Option.some.inj ht
        have hstep : p.step livekit .cancel = some { p with cancelling := true } := if_neg hrunning
        rw [h.current]
        exact Or.inr (Or.inl ⟨.cancel, _, hstep,
          ⟨h.tts, Function.update_self _ _ _, h.current, h.stream, h.receiver, h.log, h.mine⟩⟩)
  | refused =>
    simp only [Speaking.step, Speaking.refused] at ht
    split at ht
    · obtain rfl := Option.some.inj ht
      exact Or.inl ⟨h.tts, h.task, h.current, h.stream, h.receiver, h.log, h.mine⟩
    · exact absurd ht (by simp)
  | resumed =>
    simp only [Speaking.step, Speaking.resumed] at ht
    split at ht
    · obtain rfl := Option.some.inj ht
      exact Or.inl ⟨h.tts, h.task, h.current, h.stream, h.receiver, h.log, h.mine⟩
    · rename_i text _ _ _ _ _ _
      obtain rfl := Option.some.inj ht
      have hidle : Shows { s with call := .idle, receiver := s.receiver.clearAudioBuffer }
          { p with receiver := s.receiver.clearAudioBuffer } :=
        ⟨h.tts, h.task, h.current, h.stream, rfl, h.log, h.mine⟩
      exact Or.inr (Or.inr ⟨_, Shows.createTask hidle.tts hfuture hidle.log_le _⟩)
    · exact absurd ht (by simp)
  | run k raised late =>
    obtain rfl : k = p.request := (hsound.current_of_run ht).trans h.current
    obtain ⟨q, hq, hshows⟩ := h.run ht
    exact Or.inr (Or.inl ⟨.run raised late, q, hq, hshows⟩)
  | produce k =>
    obtain ⟨st, hst, rfl⟩ := Option.map_eq_some_iff.mp ht
    rcases h.move k (f := TtsStream.produce) hst with hother | ⟨hmine, hshows⟩
    · exact Or.inl hother
    · exact Or.inr (Or.inl ⟨.produce, _, by simp [Playout.step, hmine], hshows⟩)
  | chunk k pcm =>
    obtain ⟨st, hst, rfl⟩ := Option.map_eq_some_iff.mp ht
    rcases h.move k (f := TtsStream.chunk pcm) hst with hother | ⟨hmine, hshows⟩
    · exact Or.inl hother
    · exact Or.inr (Or.inl ⟨.chunk pcm, _, by simp [Playout.step, hmine], hshows⟩)
  | ends k exit =>
    obtain ⟨st, hst, rfl⟩ := Option.map_eq_some_iff.mp ht
    rcases h.move k (f := TtsStream.ends exit) hst with hother | ⟨hmine, hshows⟩
    · exact Or.inl hother
    · exact Or.inr (Or.inl ⟨.ends exit, _, by simp [Playout.step, hmine], hshows⟩)
  | dequeue =>
    obtain ⟨r, -, rfl⟩ := Option.map_eq_some_iff.mp ht
    exact Or.inr (Or.inl ⟨.receiver r, _, rfl, h.receive r⟩)
  | connected present =>
    obtain rfl := Option.some.inj ht
    exact Or.inr (Or.inl ⟨.receiver _, _, rfl, h.receive _⟩)

/-- The session has no task yet, or shows a run of a `_speak`. -/
def ShowsRun (s : Speaking) : Prop :=
  (s.tts = true ∧ s.ttsTask = none ∧ s.call = .idle ∧ s.log = []) ∨
    ∃ k text r es, Shows s ((Playout.start k text r).after livekit es)

/-- Before the first request: only a request makes a task. -/
theorem showsRun_first (hsound : Speaking.Sound s) (htts : s.tts = true) (htask : s.ttsTask = none)
    (hcall : s.call = .idle) (hlog : s.log = []) {e : SpeakEvent} (ht : s.step e = some t) : ShowsRun t := by
  have hfuture : ∀ k, s.current < k → s.streams k = {} := fun k hk => (hsound.future k hk).1
  have hempty : ∀ x ∈ s.log, x.request ≤ s.current := by simp [hlog]
  cases e with
  | request text =>
    simp only [Speaking.step, Speaking.request] at ht
    rw [if_neg (not_not.mpr hcall), if_neg (by simp [htts]), htask] at ht
    by_cases hblank : strip text = ""
    · rw [if_pos hblank] at ht
      obtain rfl := Option.some.inj ht
      exact Or.inl ⟨htts, htask, hcall, hlog⟩
    · rw [if_neg hblank] at ht
      obtain rfl := Option.some.inj ht
      exact Or.inr ⟨_, strip text, s.receiver, [], Shows.createTask htts hfuture hempty _⟩
  | refused => exact absurd ht (by simp [Speaking.step, Speaking.refused, hcall])
  | resumed => exact absurd ht (by simp [Speaking.step, Speaking.resumed, hcall])
  | run k raised late =>
    obtain rfl := hsound.current_of_run ht
    have hnone : s.tasks s.current = none := htask
    exact absurd ht (by simp [Speaking.step, Speaking.run, hnone])
  | produce k | chunk k pcm | ends k exit =>
    obtain ⟨st, -, rfl⟩ := Option.map_eq_some_iff.mp ht
    exact Or.inl ⟨htts, htask, hcall, hlog⟩
  | dequeue =>
    obtain ⟨r, -, rfl⟩ := Option.map_eq_some_iff.mp ht
    exact Or.inl ⟨htts, htask, hcall, hlog⟩
  | connected present =>
    obtain rfl := Option.some.inj ht
    exact Or.inl ⟨htts, htask, hcall, hlog⟩

theorem showsRun_step (hsound : Speaking.Sound s) (h : ShowsRun s) {e : SpeakEvent} (ht : s.step e = some t) :
    ShowsRun t := by
  rcases h with ⟨htts, htask, hcall, hlog⟩ | ⟨k, text, r, es, hshows⟩
  · exact showsRun_first hsound htts htask hcall hlog ht
  · right
    rcases simulates hsound hshows ht with hsame | ⟨e', q, hq, hnext⟩ | ⟨text', hnew⟩
    · exact ⟨k, text, r, es, hsame⟩
    · have hafter : (Playout.start k text r).after livekit (es ++ [e']) = q := Run.final_concat hq
      exact ⟨k, text, r, es ++ [e'], hafter ▸ hnext⟩
    · exact ⟨_, text', t.receiver, [], hnew⟩

/-- **A session is one `_speak` after the other**: whatever happens in it, the task it has is a run of a
`_speak` on its own. -/
theorem playout_of_session (es : List SpeakEvent) :
    (speaking true es).ttsTask = none ∨
      ∃ k text r es', Shows (speaking true es) ((Playout.start k text r).after livekit es') := by
  have hboth : Speaking.Sound (speaking true es) ∧ ShowsRun (speaking true es) :=
    Run.final_of_step (P := fun s => Speaking.Sound s ∧ ShowsRun s)
      (fun _ _ _ h ht => ⟨Speaking.sound_step h.1 ht, showsRun_step h.1 h.2 ht⟩)
      ⟨Speaking.sound_initial true, Or.inl ⟨rfl, rfl, rfl, rfl⟩⟩ es
  rcases hboth.2 with ⟨-, htask, -, -⟩ | hshows
  · exact Or.inl htask
  · exact Or.inr hshows

end SenseVoice.Bridge
