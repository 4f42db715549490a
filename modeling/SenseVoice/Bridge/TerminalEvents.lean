import SenseVoice.Bridge.Playout

/-!
# How a `_speak` ends

The log of a `_speak` is `tts.started`, the pushes, and the terminal messages (`transcript`). The loop is left in
two ways that end alike: when the complete stream has been pushed, and when `push_pcm` refuses a frame. `Where`
says what the log holds at each point the task can wait at; `Drained` keeps the two ways apart.

Results:
* `stage_step`: where the task waits, the log is as `Where` says, for any receiver and any disturbance;
* **`finished_truthful_iff`**: `tts.finished` tells the truth exactly if no frame was refused.
-/

namespace SenseVoice.Bridge

open Lib

namespace Playout

/-- `tts.started`, the pushes, and the terminal messages. -/
def transcript (k : ℕ) (head : List SpeechMessage) (ps : List Push) (tail : List SpeechMessage) :
    List SpeechEntry :=
  head.map (SpeechEntry.emit k) ++ ps.map SpeechEntry.push ++ tail.map (SpeechEntry.emit k)

/-- All of the complete stream was pushed and accepted, in whole frames. -/
structure Played (st : TtsStream) (ps : List Push) : Prop where
  complete : st.Complete
  accepted : ∀ p ∈ ps, p.accepted = true
  whole : ∀ p ∈ ps, p.frame.length = frameBytes
  covered : ∃ k < frameBytes, (ps.map Push.frame).flatten = st.audio ++ List.replicate k 0
  nonempty : ps ≠ []

/-- The loop was left: a frame was refused, or all was played. -/
def Drained (st : TtsStream) (ps : List Push) : Prop := (∃ p ∈ ps, p.accepted = false) ∨ Played st ps

/-- What the terminal messages so far stand for. -/
structure Settled (st : TtsStream) (ps : List Push) (tail : List SpeechMessage) : Prop where
  finished : .finished ∈ tail → Drained st ps
  unfinished : .finished ∉ tail → tail = [] ∨ ∀ p ∈ ps, p.accepted = true

/-- What the log holds where the task waits. -/
def Where (pc : SpeakPc) (st : TtsStream) (head : List SpeechMessage) (ps : List Push)
    (tail : List SpeechMessage) : Prop :=
  match pc with
  | .created => st = {} ∧ head = [] ∧ ps = [] ∧ tail = []
  | .announcing => st = {} ∧ ps = [] ∧ tail = []
  | .waiting => st.Looping ps ∧ tail = []
  | .pacing => st.Looping ps ∧ frameBytes ≤ st.pending.length ∧ tail = []
  | .draining => Drained st ps ∧ tail = []
  | .finishing => Drained st ps ∧ tail = [.finished]
  | .unwinding exit => Settled st ps tail ∧
      (exit ≠ .cancelled → .finished ∉ tail → ∀ p ∈ ps, p.accepted = true)
  | .failing | .done _ => Settled st ps tail

variable {ρ : Type} {rx : AudioReceiver ρ} {s t : Playout ρ} {st st' : TtsStream}
  {head tail : List SpeechMessage} {ps : List Push}

/-- What holds of a `_speak` at every moment. -/
structure Stage (s : Playout ρ) : Prop where
  fed : s.stream.Fed
  closed : s.stream.streamDone = true → s.stream.producer.active = false
  told : ∃ head ps tail, s.log = transcript s.request head ps tail ∧
    (head = [.started s.text.length] ∨ head = [] ∧ (s.pc = .created ∨ s.pc = .done .cancelled)) ∧
    Where s.pc s.stream head ps tail

/-! ## The producer moves -/

/-- A producer that still moves has not put out all. -/
theorem not_complete (hactive : st.producer.active = true) : ¬ st.Complete := by
  intro h
  rw [h.1] at hactive
  exact absurd hactive (by decide)

theorem not_played (hactive : st.producer.active = true) : ¬ Played st ps :=
  fun h => not_complete hactive h.complete

theorem Drained.move (h : Drained st ps) (hmove : st.ProducerMove st') : Drained st' ps :=
  Or.inl (h.resolve_right (not_played hmove.active))

theorem Settled.move (h : Settled st ps tail) (hmove : st.ProducerMove st') : Settled st' ps tail :=
  ⟨fun hfinished => (h.finished hfinished).move hmove, h.unfinished⟩

theorem Where.move {pc : SpeakPc} (h : Where pc st head ps tail) (hfed : st.Fed) (hmove : st.ProducerMove st') :
    Where pc st' head ps tail := by
  cases pc with
  | created | announcing =>
    obtain ⟨rfl, -⟩ := h
    exact absurd hmove.active (by decide)
  | waiting => exact ⟨h.1.move hfed hmove, h.2⟩
  | pacing =>
    obtain ⟨hloop, hlen, htail⟩ := h
    obtain ⟨more, hpending, -⟩ := hmove.grows
    refine ⟨hloop.move hfed hmove, ?_, htail⟩
    rw [hpending, List.length_append]
    omega
  | draining | finishing => exact ⟨h.1.move hmove, h.2⟩
  | unwinding exit => exact ⟨h.1.move hmove, h.2⟩
  | failing | done result => exact Settled.move h hmove

theorem stage_move (h : Stage s) (hmove : s.stream.ProducerMove st)
    (hclosed : st.streamDone = true → st.producer.active = false) : Stage { s with stream := st } := by
  obtain ⟨head, ps, tail, hlog, hhead, hwhere⟩ := h.told
  exact ⟨hmove.fed h.fed, hclosed, head, ps, tail, hlog, hhead, hwhere.move h.fed hmove⟩

theorem closed_produce (h : st.produce = some st') (hclosed : st.streamDone = true → st.producer.active = false) :
    st'.streamDone = true → st'.producer.active = false := by
  have hactive := (TtsStream.produce_move h).active
  unfold TtsStream.produce at h
  split at h
  · obtain rfl := Option.some.inj h
    intro hdone
    exact absurd ((hclosed hdone).symm.trans hactive) (by decide)
  · exact absurd h (by simp)

theorem closed_chunk {pcm : Pcm} (h : st.chunk pcm = some st')
    (hclosed : st.streamDone = true → st.producer.active = false) :
    st'.streamDone = true → st'.producer.active = false := by
  unfold TtsStream.chunk at h
  split at h
  · obtain rfl := Option.some.inj h
    exact hclosed
  · exact absurd h (by simp)

theorem closed_ends {exit : Exit} (h : st.ends exit = some st') : st'.producer.active = false := by
  unfold TtsStream.ends at h
  split at h
  · obtain rfl := Option.some.inj h
    rfl
  · obtain rfl := Option.some.inj h
    rfl
  · obtain rfl := Option.some.inj h
    rfl
  · obtain rfl := Option.some.inj h
    rfl
  · exact absurd h (by simp)

/-! ## The log goes on -/

theorem transcript_push (k : ℕ) (head : List SpeechMessage) (ps : List Push) (p : Push) :
    transcript k head ps [] ++ [.push p] = transcript k head (ps ++ [p]) [] := by
  simp [transcript]

theorem transcript_emit (k : ℕ) (head : List SpeechMessage) (ps : List Push) (tail : List SpeechMessage)
    (m : SpeechMessage) : transcript k head ps tail ++ [.emit k m] = transcript k head ps (tail ++ [m]) := by
  simp [transcript]

/-- A terminal message after a settled tail, when it is not `tts.finished`. -/
theorem Settled.error (h : Settled st ps tail) (haccepted : .finished ∉ tail → ∀ p ∈ ps, p.accepted = true)
    (exc : String) : Settled st ps (tail ++ [.error exc]) where
  finished := fun hmem => h.finished (by simpa using hmem)
  unfinished := fun hmem => Or.inr (haccepted fun hold => hmem (List.mem_append_left _ hold))

theorem settled_silent (st : TtsStream) (ps : List Push) : Settled st ps [] where
  finished := fun h => absurd h List.not_mem_nil
  unfinished := fun _ => Or.inl rfl

theorem Drained.settled (h : Drained st ps) : Settled st ps [.finished] where
  finished := fun _ => h
  unfinished := fun hno => absurd List.mem_cons_self hno

/-- The handlers after the `finally`. -/
theorem stage_handleExit {exit : Exit} (hfed : s.stream.Fed)
    (hclosed : s.stream.streamDone = true → s.stream.producer.active = false)
    (hlog : s.log = transcript s.request [.started s.text.length] ps tail) (hsettled : Settled s.stream ps tail)
    (haccepted : exit ≠ .cancelled → .finished ∉ tail → ∀ p ∈ ps, p.accepted = true) :
    Stage (s.handleExit rx exit) := by
  cases exit with
  | returned => exact ⟨hfed, hclosed, _, ps, tail, hlog, Or.inl rfl, hsettled⟩
  | cancelled => exact ⟨hfed, hclosed, _, ps, tail, hlog, Or.inl rfl, hsettled⟩
  | raised exc =>
    have hlog' : s.log ++ [.emit s.request (.error exc)] =
        transcript s.request [.started s.text.length] ps (tail ++ [.error exc]) := by
      rw [← transcript_emit, ← hlog]
    have hsettled' := hsettled.error (haccepted (by simp)) exc
    exact ⟨hfed, hclosed, _, ps, _, hlog', Or.inl rfl, hsettled'⟩

/-- The block is left. -/
theorem stage_leave {exit : Exit} (hfed : s.stream.Fed)
    (hclosed : s.stream.streamDone = true → s.stream.producer.active = false)
    (hlog : s.log = transcript s.request [.started s.text.length] ps tail) (hsettled : Settled s.stream ps tail)
    (haccepted : exit ≠ .cancelled → .finished ∉ tail → ∀ p ∈ ps, p.accepted = true) :
    Stage (s.leave rx exit) := by
  unfold leave
  split
  · rename_i hactive
    have hdone : s.stream.streamDone ≠ true := fun hdone => by simp [hclosed hdone] at hactive
    refine ⟨hfed, fun h => absurd h hdone, _, ps, tail, hlog, Or.inl rfl, ⟨?_, hsettled.unfinished⟩, haccepted⟩
    exact fun hfinished => Or.inl ((hsettled.finished hfinished).resolve_right (not_played hactive))
  · exact stage_handleExit hfed hclosed hlog hsettled haccepted

/-! ## The pacing loop -/

/-- The loop ends with nothing left only after a frame. -/
theorem iteration_rest_nil {started : Bool} (h : st.iteration started = .rest) (hnil : st.pending = []) :
    started = true := by
  unfold TtsStream.iteration at h
  split at h
  · exact absurd h (by simp)
  · cases started with
    | true => rfl
    | false =>
      rw [hnil] at h
      split_ifs at h with _ hempty
      exact absurd ⟨rfl, rfl⟩ hempty

/-- A frame is taken off what is pending. -/
theorem open_take (h : st.Open ps) (hlen : frameBytes ≤ st.pending.length) {p : Push}
    (hp : p.frame = st.pending.take frameBytes) :
    TtsStream.Open { st with pending := st.pending.drop frameBytes } (ps ++ [p]) where
  whole := by
    intro q hq
    rcases List.mem_append.mp hq with hq | hq
    · exact h.whole q hq
    · rw [List.mem_singleton.mp hq, hp, List.length_take]
      omega
  sum := by
    rw [List.map_append, List.flatten_append, List.append_assoc, List.map_singleton, List.flatten_singleton, hp,
      List.take_append_drop]
    exact h.sum

theorem looping_take (h : st.Looping ps) (hlen : frameBytes ≤ st.pending.length) {p : Push}
    (hp : p.frame = st.pending.take frameBytes) (haccepted : p.accepted = true) :
    TtsStream.Looping { st with pending := st.pending.drop frameBytes } (ps ++ [p]) where
  kept := open_take h.kept hlen hp
  live := h.live
  taken := by
    intro q hq
    rcases List.mem_append.mp hq with hq | hq
    · exact h.taken q hq
    · rw [List.mem_singleton.mp hq, haccepted]

/-- The frame that `pushFrame` pushes, with its answer. -/
def nextPush (rx : AudioReceiver ρ) (s : Playout ρ) : Push :=
  ⟨s.request, s.stream.pending.take frameBytes, (s.pushFrame rx).2⟩

theorem log_pushFrame (hlog : s.log = transcript s.request [.started s.text.length] ps []) :
    (s.pushFrame rx).1.log = transcript s.request [.started s.text.length] (ps ++ [nextPush rx s]) [] := by
  rw [← transcript_push, ← hlog]
  rfl

/-- A refused frame ends the loop. -/
theorem stage_refused (hfed : s.stream.Fed)
    (hclosed : s.stream.streamDone = true → s.stream.producer.active = false)
    (hlog : s.log = transcript s.request [.started s.text.length] ps [])
    (hrefused : (s.pushFrame rx).2 = false) : Stage ((s.pushFrame rx).1.await .draining) :=
  ⟨hfed, hclosed, _, ps ++ [nextPush rx s], [], log_pushFrame hlog, Or.inl rfl,
    Or.inl ⟨nextPush rx s, List.mem_append_right _ List.mem_cons_self, hrefused⟩, rfl⟩

/-- What is left of a complete stream is pushed. -/
theorem stage_pushRest (hfed : s.stream.Fed)
    (hclosed : s.stream.streamDone = true → s.stream.producer.active = false)
    (hlog : s.log = transcript s.request [.started s.text.length] ps []) (hloop : s.stream.Looping ps)
    {started : Bool} (hstarted : started = true → ps ≠ []) (hrest : s.stream.iteration started = .rest) :
    Stage ((s.pushRest rx).await .draining) := by
  obtain ⟨herr, hdone, hlen⟩ := Speaking.iteration_rest hrest
  have hcomplete := hloop.live.complete hdone herr
  unfold pushRest
  split
  · rename_i hnil
    have hsum : (ps.map Push.frame).flatten = s.stream.audio ++ List.replicate 0 0 := by
      rw [← hloop.kept.sum, hnil]
      simp
    have hplayed : Played s.stream ps := ⟨hcomplete, hloop.taken, hloop.kept.whole,
      ⟨0, TtsStream.frameBytes_pos, hsum⟩, hstarted (iteration_rest_nil hrest hnil)⟩
    exact ⟨hfed, hclosed, _, ps, [], hlog, Or.inl rfl, Or.inr hplayed, rfl⟩
  · rename_i hsome
    set p : Push := ⟨s.request, ljust frameBytes 0 s.stream.pending,
      ((s.setPending []).push rx (ljust frameBytes 0 s.stream.pending)).2⟩ with hp
    have hlog' : ((s.setPending []).push rx (ljust frameBytes 0 s.stream.pending)).1.log =
        transcript s.request [.started s.text.length] (ps ++ [p]) [] := by
      rw [← transcript_push, ← hlog]
      rfl
    refine ⟨hfed, hclosed, _, ps ++ [p], [], hlog', Or.inl rfl, ?_, rfl⟩
    cases hanswer : p.accepted with
    | false => exact Or.inl ⟨p, List.mem_append_right _ List.mem_cons_self, hanswer⟩
    | true =>
      have hpos : 0 < s.stream.pending.length := List.length_pos_iff.mpr hsome
      refine Or.inr ⟨hcomplete, fun q hq => ?_, fun q hq => ?_, ?_, by simp⟩
      · rcases List.mem_append.mp hq with hq | hq
        · exact hloop.taken q hq
        · rw [List.mem_singleton.mp hq, hanswer]
      · rcases List.mem_append.mp hq with hq | hq
        · exact hloop.kept.whole q hq
        · rw [List.mem_singleton.mp hq, hp]
          unfold ljust
          rw [List.length_append, List.length_replicate]
          omega
      · refine ⟨frameBytes - s.stream.pending.length, by omega, ?_⟩
        have hsum : s.stream.audio = (ps.map Push.frame).flatten ++ s.stream.pending := hloop.kept.sum.symm
        change _ = s.stream.audio ++ _
        rw [hsum, List.map_append, List.flatten_append, List.append_assoc]
        simp [hp, ljust]

/-- An iteration fails. -/
theorem stage_fail (hfed : s.stream.Fed) (hclosed : s.stream.streamDone = true → s.stream.producer.active = false)
    (hlog : s.log = transcript s.request [.started s.text.length] ps []) (hloop : s.stream.Looping ps)
    (exc : String) : Stage (s.leave rx (.raised exc)) :=
  stage_leave hfed hclosed hlog (settled_silent _ _) fun _ _ => hloop.taken

/-- By induction on the frames that are late: an accepted frame keeps `Looping`. -/
theorem stage_loop (late : ℕ) {started : Bool} (hfed : s.stream.Fed)
    (hclosed : s.stream.streamDone = true → s.stream.producer.active = false)
    (hlog : s.log = transcript s.request [.started s.text.length] ps []) (hloop : s.stream.Looping ps)
    (hstarted : started = true → ps ≠ []) : Stage (s.loop rx late started) := by
  induction late generalizing started s ps with
  | zero =>
    unfold loop
    cases hiteration : s.stream.iteration started with
    | fail exc => exact stage_fail hfed hclosed hlog hloop exc
    | wait => exact ⟨hfed, hclosed, _, ps, [], hlog, Or.inl rfl, hloop, rfl⟩
    | rest => exact stage_pushRest hfed hclosed hlog hloop hstarted hiteration
    | frame =>
      have hlen := Speaking.iteration_frame hiteration
      exact ⟨hfed, hclosed, _, ps, [], hlog, Or.inl rfl, hloop, hlen, rfl⟩
  | succ late ih =>
    unfold loop
    cases hiteration : s.stream.iteration started with
    | fail exc => exact stage_fail hfed hclosed hlog hloop exc
    | wait => exact ⟨hfed, hclosed, _, ps, [], hlog, Or.inl rfl, hloop, rfl⟩
    | rest => exact stage_pushRest hfed hclosed hlog hloop hstarted hiteration
    | frame =>
      have hlen := Speaking.iteration_frame hiteration
      dsimp only
      split
      · rename_i haccepted
        have hnext : (s.pushFrame rx).1.stream.Looping (ps ++ [nextPush rx s]) :=
          looping_take hloop hlen rfl haccepted
        exact ih hfed hclosed (log_pushFrame hlog) hnext (by simp)
      · rename_i hrefused
        exact stage_refused hfed hclosed hlog (Bool.eq_false_iff.mpr hrefused)

/-! ## The task's run -/

theorem Where.settled {pc : SpeakPc} (h : Where pc st head ps tail) : Settled st ps tail := by
  cases pc with
  | created =>
    obtain ⟨-, -, -, rfl⟩ := h
    exact settled_silent _ _
  | announcing =>
    obtain ⟨-, -, rfl⟩ := h
    exact settled_silent _ _
  | waiting | draining =>
    obtain ⟨-, rfl⟩ := h
    exact settled_silent _ _
  | pacing =>
    obtain ⟨-, -, rfl⟩ := h
    exact settled_silent _ _
  | finishing =>
    obtain ⟨hdrained, rfl⟩ := h
    exact hdrained.settled
  | unwinding exit => exact h.1
  | failing | done result => exact h

/-- The log begins with `tts.started` once the task has run. -/
theorem Stage.begun (h : Stage s) (hcreated : s.pc ≠ .created) (hcancelled : s.pc ≠ .done .cancelled) :
    ∃ ps tail, s.log = transcript s.request [.started s.text.length] ps tail ∧
      Where s.pc s.stream [.started s.text.length] ps tail := by
  obtain ⟨head, ps, tail, hlog, rfl | ⟨-, hpc | hpc⟩, hwhere⟩ := h.told
  · exact ⟨ps, tail, hlog, hwhere⟩
  · exact absurd hpc hcreated
  · exact absurd hpc hcancelled

/-- The end of the `finally`. -/
theorem stage_unwound {exit : Exit} (h : Stage s) (hpc : s.pc = .unwinding exit)
    (ht : (if s.stream.producer.active then none else some (s.handleExit rx exit)) = some t) : Stage t := by
  split at ht
  · exact absurd ht (by simp)
  · obtain rfl := Option.some.inj ht
    obtain ⟨ps, tail, hlog, hwhere⟩ := h.begun (by simp [hpc]) (by simp [hpc])
    rw [hpc] at hwhere
    exact stage_handleExit h.fed h.closed hlog hwhere.1 hwhere.2

theorem stage_interrupt (h : Stage s) (ht : s.interrupt rx = some t) : Stage t := by
  unfold interrupt at ht
  cases hpc : s.pc with
  | created | announcing | failing =>
    rw [hpc] at ht
    obtain rfl := Option.some.inj ht
    obtain ⟨head, ps, tail, hlog, hhead, hwhere⟩ := h.told
    exact ⟨h.fed, h.closed, head, ps, tail, hlog, hhead.imp_right fun h => ⟨h.1, Or.inr rfl⟩, hwhere.settled⟩
  | waiting | pacing | draining | finishing =>
    rw [hpc] at ht
    obtain rfl := Option.some.inj ht
    obtain ⟨ps, tail, hlog, hwhere⟩ := h.begun (by simp [hpc]) (by simp [hpc])
    exact stage_leave h.fed h.closed hlog hwhere.settled fun hno => absurd rfl hno
  | unwinding exit =>
    rw [hpc] at ht
    exact stage_unwound h hpc ht
  | done result =>
    rw [hpc] at ht
    exact absurd ht (by simp)

/-- The emit of `tts.finished` has come back. -/
theorem stage_finished (h : Stage s) (hpc : s.pc = .finishing) (exit : Exit) : Stage (s.leave rx exit) := by
  obtain ⟨ps, tail, hlog, hwhere⟩ := h.begun (by simp [hpc]) (by simp [hpc])
  rw [hpc] at hwhere
  obtain ⟨hdrained, rfl⟩ := hwhere
  exact stage_leave h.fed h.closed hlog hdrained.settled fun _ hno => absurd List.mem_cons_self hno

/-- The stream of a request whose producer is created. -/
theorem looping_created (h : s.stream = {}) :
    (s.setProducer .created).stream.Looping [] ∧ (s.setProducer .created).stream.streamDone ≠ true := by
  unfold setProducer
  rw [h]
  refine ⟨⟨⟨fun _ hp => absurd hp List.not_mem_nil, rfl⟩, Or.inr ⟨rfl, Or.inl rfl⟩, fun _ hp => ?_⟩, Bool.false_ne_true⟩
  exact absurd hp List.not_mem_nil

theorem stage_resume (h : Stage s) {raised : Option String} {late : ℕ}
    (ht : s.resume rx raised late = some t) : Stage t := by
  unfold resume at ht
  cases hpc : s.pc with
  | created =>
    rw [hpc] at ht
    obtain rfl := Option.some.inj ht
    obtain ⟨head, ps, tail, hlog, -, hwhere⟩ := h.told
    rw [hpc] at hwhere
    obtain ⟨hstream, rfl, rfl, rfl⟩ := hwhere
    have hlog' : s.log ++ [.emit s.request (.started s.text.length)] =
        transcript s.request [.started s.text.length] [] [] := by
      rw [hlog]
      rfl
    exact ⟨h.fed, h.closed, _, [], [], hlog', Or.inl rfl, hstream, rfl, rfl⟩
  | announcing =>
    rw [hpc] at ht
    obtain ⟨ps, tail, hlog, hwhere⟩ := h.begun (by simp [hpc]) (by simp [hpc])
    rw [hpc] at hwhere
    obtain ⟨hstream, rfl, rfl⟩ := hwhere
    cases raised with
    | none =>
      obtain rfl := Option.some.inj ht
      obtain ⟨hloop, hopen⟩ := looping_created hstream
      exact stage_loop late (s := s.setProducer .created) h.fed (fun hdone => absurd hdone hopen) hlog hloop (by simp)
    | some exc =>
      obtain rfl := Option.some.inj ht
      exact ⟨h.fed, h.closed, _, [], [], hlog, Or.inl rfl, settled_silent _ _⟩
  | waiting =>
    rw [hpc] at ht
    obtain rfl := Option.some.inj ht
    obtain ⟨ps, tail, hlog, hwhere⟩ := h.begun (by simp [hpc]) (by simp [hpc])
    rw [hpc] at hwhere
    obtain ⟨hloop, rfl⟩ := hwhere
    exact stage_loop late h.fed h.closed hlog hloop (by simp)
  | pacing =>
    rw [hpc] at ht
    obtain rfl := Option.some.inj ht
    obtain ⟨ps, tail, hlog, hwhere⟩ := h.begun (by simp [hpc]) (by simp [hpc])
    rw [hpc] at hwhere
    obtain ⟨hloop, hlen, rfl⟩ := hwhere
    split
    · rename_i haccepted
      exact stage_loop late (s := (s.pushFrame rx).1) h.fed h.closed (log_pushFrame hlog)
        (looping_take hloop hlen rfl haccepted) (by simp)
    · rename_i hrefused
      exact stage_refused h.fed h.closed hlog (Bool.eq_false_iff.mpr hrefused)
  | draining =>
    rw [hpc] at ht
    obtain rfl := Option.some.inj ht
    obtain ⟨ps, tail, hlog, hwhere⟩ := h.begun (by simp [hpc]) (by simp [hpc])
    rw [hpc] at hwhere
    obtain ⟨hdrained, rfl⟩ := hwhere
    have hlog' : s.log ++ [.emit s.request .finished] =
        transcript s.request [.started s.text.length] ps [.finished] := by
      rw [hlog, transcript_emit]
      rfl
    exact ⟨h.fed, h.closed, _, ps, _, hlog', Or.inl rfl, hdrained, rfl⟩
  | finishing =>
    rw [hpc] at ht
    cases raised with
    | none =>
      obtain rfl := Option.some.inj ht
      exact stage_finished h hpc _
    | some exc =>
      obtain rfl := Option.some.inj ht
      exact stage_finished h hpc _
  | unwinding exit =>
    rw [hpc] at ht
    exact stage_unwound h hpc ht
  | failing =>
    rw [hpc] at ht
    obtain ⟨ps, tail, hlog, hwhere⟩ := h.begun (by simp [hpc]) (by simp [hpc])
    cases raised with
    | none =>
      obtain rfl := Option.some.inj ht
      exact ⟨h.fed, h.closed, _, ps, tail, hlog, Or.inl rfl, hwhere.settled⟩
    | some exc =>
      obtain rfl := Option.some.inj ht
      exact ⟨h.fed, h.closed, _, ps, tail, hlog, Or.inl rfl, hwhere.settled⟩
  | done result =>
    rw [hpc] at ht
    exact absurd ht (by simp)

/-- **One step** keeps the log as `Where` says. -/
theorem stage_step (h : Stage s) {e : PlayoutEvent ρ} (ht : s.step rx e = some t) : Stage t := by
  cases e with
  | run raised late =>
    simp only [step, run] at ht
    split at ht
    · exact stage_interrupt h ht
    · exact stage_resume h ht
  | cancel =>
    simp only [step] at ht
    split at ht
    · exact absurd ht (by simp)
    · obtain rfl := Option.some.inj ht
      exact ⟨h.fed, h.closed, h.told⟩
  | produce =>
    obtain ⟨st, hst, rfl⟩ := Option.map_eq_some_iff.mp ht
    exact stage_move h (TtsStream.produce_move hst) (closed_produce hst h.closed)
  | chunk pcm =>
    obtain ⟨st, hst, rfl⟩ := Option.map_eq_some_iff.mp ht
    exact stage_move h (TtsStream.chunk_move hst) (closed_chunk hst h.closed)
  | ends exit =>
    obtain ⟨st, hst, rfl⟩ := Option.map_eq_some_iff.mp ht
    exact stage_move h (TtsStream.ends_move hst) fun _ => closed_ends hst
  | receiver r =>
    obtain rfl := Option.some.inj ht
    exact ⟨h.fed, h.closed, h.told⟩

theorem stage_start (k : ℕ) (text : String) (r : ρ) : Stage (start k text r) where
  fed := rfl
  closed := fun hdone => absurd hdone Bool.false_ne_true
  told := ⟨[], [], [], rfl, Or.inr ⟨rfl, Or.inl rfl⟩, rfl, rfl, rfl, rfl⟩

/-- Where a run of a `_speak` is. -/
theorem stage_after (k : ℕ) (text : String) (r : ρ) (es : List (PlayoutEvent ρ)) :
    Stage ((start k text r).after rx es) :=
  Run.final_of_step (fun _ _ _ h ht => stage_step h ht) (stage_start k text r) es

/-! ## What `tts.finished` says -/

/-- The pushes of a log. -/
def pushesOf (log : List SpeechEntry) : List Push :=
  log.filterMap fun x =>
    match x with
    | .push p => some p
    | .emit _ _ => none

theorem pushesOf_transcript (k : ℕ) (head : List SpeechMessage) (ps : List Push) (tail : List SpeechMessage) :
    pushesOf (transcript k head ps tail) = ps := by
  simp [pushesOf, transcript, List.filterMap_map]

/-- `tts.finished` is emitted only if all of the stream was accepted, and a refused frame leads to
`tts.error`. -/
structure Truthful (s : Playout ρ) : Prop where
  finished : .emit s.request .finished ∈ s.log → s.stream.Complete ∧ (∀ p ∈ pushesOf s.log, p.accepted = true) ∧
    ∃ k < frameBytes, ((pushesOf s.log).map Push.frame).flatten = s.stream.audio ++ List.replicate k 0
  refused : (∃ p ∈ pushesOf s.log, p.accepted = false) →
    ∃ message, s.log.getLast? = some (.emit s.request (.error message))

/-- The terminal messages stand at the end of the log. -/
theorem emit_mem_transcript {k : ℕ} {m : SpeechMessage} (hm : m ∉ head) :
    .emit k m ∈ transcript k head ps tail ↔ m ∈ tail := by
  simp [transcript, hm]

/-- Where no frame was refused, `tts.finished` is truthful at every moment. -/
theorem truthful_of_accepted (h : Stage s) (haccepted : ∀ p ∈ pushesOf s.log, p.accepted = true) : Truthful s := by
  obtain ⟨head, ps, tail, hlog, hhead, hwhere⟩ := h.told
  have hno : SpeechMessage.finished ∉ head := by
    rcases hhead with rfl | ⟨rfl, -⟩ <;> simp
  rw [hlog, pushesOf_transcript] at haccepted
  refine ⟨fun hfinished => ?_, ?_⟩
  · rw [hlog, emit_mem_transcript hno] at hfinished
    rw [hlog, pushesOf_transcript]
    rcases hwhere.settled.finished hfinished with ⟨p, hp, hrefused⟩ | hplayed
    · exact absurd (haccepted p hp) (by simp [hrefused])
    · exact ⟨hplayed.complete, haccepted, hplayed.covered⟩
  · rw [hlog, pushesOf_transcript]
    rintro ⟨p, hp, hrefused⟩
    exact absurd (haccepted p hp) (by simp [hrefused])

/-- A refused frame is in the log for good, and the run ends without a `tts.error`, or says `tts.finished`. -/
theorem accepted_of_truthful (h : Stage s) (ht : Truthful s) : ∀ p ∈ pushesOf s.log, p.accepted = true := by
  obtain ⟨head, ps, tail, hlog, hhead, hwhere⟩ := h.told
  have hno : SpeechMessage.finished ∉ head := by
    rcases hhead with rfl | ⟨rfl, -⟩ <;> simp
  by_cases hfinished : SpeechMessage.finished ∈ tail
  · have hmem : .emit s.request .finished ∈ s.log := by
      rw [hlog, emit_mem_transcript hno]
      exact hfinished
    exact (ht.finished hmem).2.1
  · rcases hwhere.settled.unfinished hfinished with rfl | haccepted
    · intro p hp
      by_contra hrefused
      obtain ⟨message, hlast⟩ := ht.refused ⟨p, hp, Bool.eq_false_iff.mpr hrefused⟩
      -- the last entry of the log is a push
      rw [hlog, pushesOf_transcript] at hp
      rw [hlog] at hlast
      have hne : ps ≠ [] := List.ne_nil_of_mem hp
      simp [transcript, List.getLast?_append, List.getLast?_eq_some_getLast hne] at hlast
    · rw [hlog, pushesOf_transcript]
      exact haccepted

/-- **`tts.finished` is truthful exactly if no frame was refused**, at every moment of every run. Where one was,
the log has a `tts.finished`, or no terminal message at all. -/
theorem finished_truthful_iff (rx : AudioReceiver ρ) (k : ℕ) (text : String) (r : ρ) (es : List (PlayoutEvent ρ)) :
    Truthful ((start k text r).after rx es) ↔
      ∀ p ∈ pushesOf ((start k text r).after rx es).log, p.accepted = true :=
  ⟨accepted_of_truthful (stage_after k text r es), truthful_of_accepted (stage_after k text r es)⟩

/-- A receiver that gives one answer. -/
def answering (accepts : Bool) : AudioReceiver Unit where
  pushPcm := fun _ _ _ _ r => (r, accepts)
  clearAudioBuffer := id

/-- A `_speak` with one sample of audio; how its second `emit` comes back. -/
def oneSample (raised : Option String) : List (PlayoutEvent Unit) :=
  [.run none 0, .run none 0, .produce, .chunk [1], .chunk [0], .ends .returned, .run none 0, .run none 0,
    .run raised 0, .run none 0]

/-- The refused tail is reported as played. -/
theorem refused_tail_finished :
    ((start 0 "a" ()).after (answering false) (oneSample none)).pc = .done .returned ∧
      ((start 0 "a" ()).after (answering false) (oneSample none)).log =
        [.emit 0 (.started 1), .push ⟨0, ljust frameBytes 0 [1, 0], false⟩, .emit 0 .finished] ∧
      ¬ Truthful ((start 0 "a" ()).after (answering false) (oneSample none)) := by
  refine ⟨rfl, rfl, fun h => ?_⟩
  have hrefused : (⟨0, ljust frameBytes 0 [1, 0], false⟩ : Push).accepted = true :=
    (finished_truthful_iff _ _ _ _ _).mp h _ List.mem_cons_self
  exact absurd hrefused (by simp)

end Playout

end SenseVoice.Bridge
