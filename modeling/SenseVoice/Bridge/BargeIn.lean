import SenseVoice.Bridge.Speaking

/-!
# Barge-in: one block of frames per request, and silence after an interruption

The frames of a request are taken from the front of what its producer has put into `pending`, in whole
frames, and the rest is pushed only when the stream is complete: what was pushed and what is pending make
up the upsampled stream (`Open`), or all of it was pushed (`Accounted`). While the task is in the loop
its producer has not been cancelled (`Live`); once the task is done its producer is, too (`Phase`).

Results:
* `Advance`: what a run of a task leaves alone, whatever it does;
* `sound_step`: the accounting holds of every request, in every state, since a new task is made only when the
  one before is done;
* **`barge_in`**: the pushes are one block per request, each a prefix of its frame sequence, and after
  an interruption neither a frame in the queue nor a producer is left of the interrupted request.
-/

namespace SenseVoice.Bridge

open Lib

/-! ## The frame sequence of a request -/

namespace TtsStream

/-- The upsampled audio that has come so far. -/
def audio (st : TtsStream) : Pcm := (PcmUpsampler2x.feeds {} st.chunks).2

/-- The stream has ended, and not by an error or a cancellation. -/
def Complete (st : TtsStream) : Prop := st.producer = .returned ∧ st.streamError = none

instance (st : TtsStream) : Decidable st.Complete := inferInstanceAs (Decidable (_ ∧ _))

/-- **The frame sequence**: the audio in frames; the rest is one, filled up, when the stream is
complete. -/
def frameSequence (st : TtsStream) : List Pcm :=
  if st.Complete then blocks frameBytes 0 st.audio else wholes frameBytes st.audio

/-- The upsampler has seen the chunks. -/
def Fed (st : TtsStream) : Prop := st.upsampler = (PcmUpsampler2x.feeds {} st.chunks).1

/-- The producer is at work, or has ended by itself. -/
def Live (st : TtsStream) : Prop :=
  st.producer = .returned ∨
    (st.streamDone = false ∧ (st.producer = .created ∨ st.producer = .running))

theorem Live.complete {st : TtsStream} (h : st.Live) (hdone : st.streamDone = true)
    (herr : st.streamError = none) : st.Complete := by
  rcases h with hret | ⟨hfalse, -⟩
  · exact ⟨hret, herr⟩
  · rw [hdone] at hfalse
    exact absurd hfalse (by simp)

/-- What was pushed and what is pending make up the audio. -/
structure Open (st : TtsStream) (ps : List Push) : Prop where
  whole : ∀ p ∈ ps, p.frame.length = frameBytes
  sum : (ps.map Push.frame).flatten ++ st.pending = st.audio

/-- The pushes are accounted for: they stopped at some frame, or are all frames of a complete stream;
and those accepted come first. -/
structure Accounted (st : TtsStream) (ps : List Push) : Prop where
  frames : st.Open ps ∨ (st.Complete ∧ ps.map Push.frame = blocks frameBytes 0 st.audio)
  taken : (ps.filter Push.accepted) <+: ps

/-- The state of a request whose task is in the loop. -/
structure Looping (st : TtsStream) (ps : List Push) : Prop where
  kept : st.Open ps
  live : st.Live
  taken : ∀ p ∈ ps, p.accepted = true

variable {st st' : TtsStream} {ps : List Push}

theorem frameBytes_pos : 0 < frameBytes := by decide

theorem open_fresh : Open {} [] := ⟨fun _ h => absurd h List.not_mem_nil, rfl⟩

theorem accounted_fresh : Accounted {} [] := ⟨Or.inl open_fresh, List.prefix_rfl⟩

theorem Open.first_frames (h : st.Open ps) : ps.map Push.frame <+: st.frameSequence := by
  have hwhole : ∀ f ∈ ps.map Push.frame, f.length = frameBytes := by
    intro f hf
    obtain ⟨p, hp, rfl⟩ := List.mem_map.mp hf
    exact h.whole p hp
  unfold frameSequence
  rw [← h.sum]
  split
  · exact first_blocks frameBytes_pos hwhole _
  · exact first_wholes frameBytes_pos hwhole _

theorem Accounted.first_frames (h : st.Accounted ps) : ps.map Push.frame <+: st.frameSequence := by
  rcases h.frames with hopen | ⟨hcomplete, hall⟩
  · exact hopen.first_frames
  · have hsequence : st.frameSequence = ps.map Push.frame := by
      unfold frameSequence
      rw [if_pos hcomplete]
      exact hall.symm
    exact hsequence ▸ List.prefix_rfl

/-- While the producer is active the stream is not complete. -/
theorem Accounted.still_open (h : st.Accounted ps) (hactive : st.producer.active = true) : st.Open ps := by
  rcases h.frames with hopen | ⟨hcomplete, -⟩
  · exact hopen
  · rw [hcomplete.1] at hactive
    exact absurd hactive (by decide)

theorem filter_accepted (h : ∀ p ∈ ps, p.accepted = true) : ps.filter Push.accepted = ps :=
  List.filter_eq_self.mpr h

theorem Looping.accounted (h : st.Looping ps) : st.Accounted ps := by
  have htaken : ps.filter Push.accepted = ps := filter_accepted h.taken
  exact ⟨Or.inl h.kept, ⟨[], by rw [htaken, List.append_nil]⟩⟩

/-- A push after accepted ones. -/
theorem taken_concat (h : ∀ p ∈ ps, p.accepted = true) (p : Push) :
    ((ps ++ [p]).filter Push.accepted) <+: ps ++ [p] := by
  rw [List.filter_append, filter_accepted h]
  cases haccepted : p.accepted with
  | true => simp [haccepted]
  | false => simp [haccepted]

/-! ## What a producer does -/

/-- A move of the producer: it was active, and the pending audio grows as the stream does. -/
structure ProducerMove (st st' : TtsStream) : Prop where
  active : st.producer.active = true
  fed : st.Fed → st'.Fed
  grows : ∃ more, st'.pending = st.pending ++ more ∧ (st.Fed → st'.audio = st.audio ++ more)
  live : st.Live → st'.Live

theorem produce_move (h : st.produce = some st') : ProducerMove st st' := by
  unfold produce at h
  split at h
  · rename_i hcreated
    obtain rfl := Option.some.inj h
    refine ⟨by rw [hcreated]; rfl, id, ⟨[], (List.append_nil _).symm, fun _ => (List.append_nil _).symm⟩,
      fun hlive => ?_⟩
    rcases hlive with hret | ⟨hfalse, -⟩
    · rw [hcreated] at hret
      exact absurd hret (by decide)
    · exact Or.inr ⟨hfalse, Or.inr rfl⟩
  · exact absurd h (by simp)

theorem chunk_move {pcm : Pcm} (h : st.chunk pcm = some st') : ProducerMove st st' := by
  unfold chunk at h
  split at h
  · rename_i hrunning
    obtain rfl := Option.some.inj h
    refine ⟨by rw [hrunning]; rfl, fun hfed => ?_, ⟨(st.upsampler.feed pcm).2, rfl, fun hfed => ?_⟩, id⟩
    · unfold Fed
      rw [PcmUpsampler2x.feeds_concat, ← hfed]
    · unfold audio
      rw [PcmUpsampler2x.feeds_concat, ← hfed]
  · exact absurd h (by simp)

theorem ends_move {exit : Exit} (h : st.ends exit = some st') : ProducerMove st st' := by
  have hgrows : ∀ producer done error, ∃ more,
      ({ st with producer := producer, streamDone := done, streamError := error } : TtsStream).pending =
        st.pending ++ more ∧ (st.Fed → st.audio = st.audio ++ more) :=
    fun _ _ _ => ⟨[], (List.append_nil _).symm, fun _ => (List.append_nil _).symm⟩
  have hcancelling : ∀ b, st.producer = .cancelling b → ¬ st.Live := by
    rintro b hb (hret | ⟨-, hcreated | hrunning⟩)
    · rw [hb] at hret
      exact absurd hret (by simp)
    · rw [hb] at hcreated
      exact absurd hcreated (by simp)
    · rw [hb] at hrunning
      exact absurd hrunning (by simp)
  unfold ends at h
  split at h
  · rename_i hrunning
    obtain rfl := Option.some.inj h
    exact ⟨by rw [hrunning]; rfl, id, hgrows _ _ _, fun _ => Or.inl rfl⟩
  · rename_i hrunning
    obtain rfl := Option.some.inj h
    exact ⟨by rw [hrunning]; rfl, id, hgrows _ _ _, fun _ => Or.inl rfl⟩
  · rename_i hcancel
    obtain rfl := Option.some.inj h
    exact ⟨by rw [hcancel]; rfl, id, hgrows _ _ _, fun _ => Or.inl rfl⟩
  · rename_i hcancel
    obtain rfl := Option.some.inj h
    exact ⟨by rw [hcancel]; rfl, id, hgrows _ _ _, fun hlive => absurd hlive (hcancelling _ hcancel)⟩
  · exact absurd h (by simp)

theorem Open.move (h : st.Open ps) (hfed : st.Fed) (hmove : ProducerMove st st') : st'.Open ps := by
  obtain ⟨more, hpending, haudio⟩ := hmove.grows
  refine ⟨h.whole, ?_⟩
  rw [hpending, haudio hfed, ← h.sum, List.append_assoc]

theorem Looping.move (h : st.Looping ps) (hfed : st.Fed) (hmove : ProducerMove st st') :
    st'.Looping ps :=
  ⟨h.kept.move hfed hmove, hmove.live h.live, h.taken⟩

theorem Accounted.move (h : st.Accounted ps) (hfed : st.Fed) (hmove : ProducerMove st st') :
    st'.Accounted ps :=
  ⟨Or.inl ((h.still_open hmove.active).move hfed hmove), h.taken⟩

end TtsStream

namespace Speaking

variable {s t u : Speaking} {k : ℕ}

/-! ## What a run of the task leaves alone -/

/-- The task of request `k` moves: it pushes for its own request only, and touches neither the locals nor the task
of another one. -/
structure Advance (k : ℕ) (s t : Speaking) : Prop where
  call : t.call = s.call
  current : t.current = s.current
  tasks : ∀ j, j ≠ k → t.tasks j = s.tasks j
  others : ∀ j, j ≠ k → t.streams j = s.streams j
  upsampler : (t.streams k).upsampler = (s.streams k).upsampler
  chunks : (t.streams k).chunks = (s.streams k).chunks
  pushed : ∃ new, t.pushed = s.pushed ++ new ∧ ∀ p ∈ new, p.request = k
  queue : ∀ f ∈ t.receiver.pushQueue, f ∈ s.receiver.pushQueue ∨ f.request = k

/-- A move that pushes nothing. -/
theorem advance_of_silent (hcall : t.call = s.call) (hcurrent : t.current = s.current)
    (htasks : ∀ j, j ≠ k → t.tasks j = s.tasks j)
    (hothers : ∀ j, j ≠ k → t.streams j = s.streams j)
    (hupsampler : (t.streams k).upsampler = (s.streams k).upsampler)
    (hchunks : (t.streams k).chunks = (s.streams k).chunks)
    (hpushed : t.pushed = s.pushed) (hqueue : ∀ f ∈ t.receiver.pushQueue, f ∈ s.receiver.pushQueue) :
    Advance k s t := by
  refine ⟨hcall, hcurrent, htasks, hothers, hupsampler, hchunks, ⟨[], ?_, ?_⟩, fun f hf => Or.inl (hqueue f hf)⟩
  · rw [hpushed, List.append_nil]
  · intro p hp
    exact absurd hp List.not_mem_nil

theorem advance_refl (k : ℕ) (s : Speaking) : Advance k s s :=
  advance_of_silent rfl rfl (fun _ _ => rfl) (fun _ _ => rfl) rfl rfl rfl fun _ hf => hf

theorem Advance.trans (h : Advance k s t) (h' : Advance k t u) : Advance k s u := by
  obtain ⟨new, hnew, hmine⟩ := h.pushed
  obtain ⟨new', hnew', hmine'⟩ := h'.pushed
  refine ⟨h'.call.trans h.call, h'.current.trans h.current, fun j hj => (h'.tasks j hj).trans (h.tasks j hj),
    fun j hj => (h'.others j hj).trans (h.others j hj), h'.upsampler.trans h.upsampler,
    h'.chunks.trans h.chunks, ⟨new ++ new', ?_, fun p hp => ?_⟩, fun f hf => ?_⟩
  · rw [hnew', hnew, List.append_assoc]
  · rcases List.mem_append.mp hp with hp | hp
    · exact hmine p hp
    · exact hmine' p hp
  · rcases h'.queue f hf with hf | hf
    · exact h.queue f hf
    · exact Or.inr hf

theorem advance_await (pc : SpeakPc) (s : Speaking) : Advance k s (s.await k pc) :=
  advance_of_silent rfl rfl (fun _ hj => Function.update_of_ne hj _ _) (fun _ _ => rfl) rfl rfl rfl fun _ hf => hf

@[simp] theorem pushed_emit (k : ℕ) (m : SpeechMessage) (s : Speaking) : (s.emit k m).pushed = s.pushed := by
  unfold pushed emit
  simp

theorem advance_emit (m : SpeechMessage) (s : Speaking) : Advance k s (s.emit k m) :=
  advance_of_silent rfl rfl (fun _ _ => rfl) (fun _ _ => rfl) rfl rfl (pushed_emit k m s) fun _ hf => hf

@[simp] theorem stream_setPending (pending : Pcm) (s : Speaking) :
    (s.setPending k pending).streams k = { s.streams k with pending := pending } := Function.update_self _ _ _

@[simp] theorem stream_setProducer (producer : Producer) (s : Speaking) :
    (s.setProducer k producer).streams k = { s.streams k with producer := producer } :=
  Function.update_self _ _ _

theorem advance_setPending (pending : Pcm) (s : Speaking) : Advance k s (s.setPending k pending) :=
  advance_of_silent rfl rfl (fun _ _ => rfl) (fun _ hj => Function.update_of_ne hj _ _) (by rw [stream_setPending])
    (by rw [stream_setPending]) rfl fun _ hf => hf

theorem advance_setProducer (producer : Producer) (s : Speaking) :
    Advance k s (s.setProducer k producer) :=
  advance_of_silent rfl rfl (fun _ _ => rfl) (fun _ hj => Function.update_of_ne hj _ _) (by rw [stream_setProducer])
    (by rw [stream_setProducer]) rfl fun _ hf => hf

theorem advance_clear (s : Speaking) :
    Advance k s { s with receiver := s.receiver.clearAudioBuffer } :=
  advance_of_silent rfl rfl (fun _ _ => rfl) (fun _ _ => rfl) rfl rfl rfl fun _ hf => absurd hf List.not_mem_nil

theorem pushed_push (frame : Pcm) (s : Speaking) :
    (s.push k frame).1.pushed = s.pushed ++ [⟨k, frame, (s.push k frame).2⟩] := by
  unfold pushed push
  rw [List.filterMap_append]
  rfl

theorem advance_push (frame : Pcm) (s : Speaking) : Advance k s (s.push k frame).1 := by
  refine ⟨rfl, rfl, fun _ _ => rfl, fun _ _ => rfl, rfl, rfl, ⟨_, pushed_push frame s, fun p hp => ?_⟩,
    fun f hf => LivekitReceiver.mem_pushPcm hf⟩
  rw [List.mem_singleton.mp hp]

theorem advance_pushFrame (s : Speaking) : Advance k s (s.pushFrame k).1 :=
  (advance_setPending _ s).trans (advance_push _ _)

theorem advance_pushRest (s : Speaking) : Advance k s (s.pushRest k) := by
  unfold pushRest
  split
  · exact advance_refl k s
  · exact (advance_setPending _ s).trans (advance_push _ _)

theorem advance_handleExit (exit : Exit) (s : Speaking) : Advance k s (s.handleExit k exit) := by
  cases exit with
  | returned => exact advance_await _ s
  | cancelled => exact (advance_clear s).trans (advance_await _ _)
  | raised exc => exact (advance_emit _ s).trans (advance_await _ _)

theorem advance_leave (exit : Exit) (s : Speaking) : Advance k s (s.leave k exit) := by
  unfold leave
  split
  · exact (advance_setProducer _ s).trans (advance_await _ _)
  · exact advance_handleExit exit s

/-- By induction on the frames that are late. -/
theorem advance_loop (late : ℕ) (started : Bool) (s : Speaking) :
    Advance k s (s.loop k late started) := by
  induction late generalizing started s with
  | zero =>
    unfold loop
    split
    · exact advance_leave _ s
    · exact advance_await _ s
    · exact (advance_pushRest s).trans (advance_await _ _)
    · exact advance_await _ s
  | succ late ih =>
    unfold loop
    split
    · exact advance_leave _ s
    · exact advance_await _ s
    · exact (advance_pushRest s).trans (advance_await _ _)
    · dsimp only
      split
      · exact (advance_pushFrame s).trans (ih true _)
      · exact (advance_pushFrame s).trans (advance_await _ _)

theorem advance_interrupt {pc : SpeakPc} (h : s.interrupt k pc = some t) : Advance k s t := by
  cases pc with
  | created | announcing | failing =>
    obtain rfl := Option.some.inj h
    exact advance_await _ s
  | waiting | pacing | draining | finishing =>
    obtain rfl := Option.some.inj h
    exact advance_leave _ s
  | unwinding exit =>
    simp only [interrupt] at h
    split at h
    · exact absurd h (by simp)
    · obtain rfl := Option.some.inj h
      exact advance_handleExit exit s
  | done result => exact absurd h (by simp [interrupt])

theorem advance_resume {text : String} {pc : SpeakPc} {raised : Option String} {late : ℕ}
    (h : s.resume k text pc raised late = some t) : Advance k s t := by
  cases pc with
  | created =>
    obtain rfl := Option.some.inj h
    exact (advance_emit _ s).trans (advance_await _ _)
  | announcing =>
    cases raised with
    | none =>
      obtain rfl := Option.some.inj h
      exact (advance_setProducer _ s).trans (advance_loop _ _ _)
    | some exc =>
      obtain rfl := Option.some.inj h
      exact advance_await _ s
  | waiting =>
    obtain rfl := Option.some.inj h
    exact advance_loop _ _ s
  | pacing =>
    obtain rfl := Option.some.inj h
    split
    · exact (advance_pushFrame s).trans (advance_loop _ _ _)
    · exact (advance_pushFrame s).trans (advance_await _ _)
  | draining =>
    obtain rfl := Option.some.inj h
    exact (advance_emit _ s).trans (advance_await _ _)
  | finishing =>
    cases raised with
    | none =>
      obtain rfl := Option.some.inj h
      exact advance_leave _ s
    | some exc =>
      obtain rfl := Option.some.inj h
      exact advance_leave _ s
  | unwinding exit =>
    simp only [resume] at h
    split at h
    · exact absurd h (by simp)
    · obtain rfl := Option.some.inj h
      exact advance_handleExit exit s
  | failing =>
    cases raised with
    | none =>
      obtain rfl := Option.some.inj h
      exact advance_await _ s
    | some exc =>
      obtain rfl := Option.some.inj h
      exact advance_await _ s
  | done result => exact absurd h (by simp [resume])

/-! ## Where a request is -/

/-- What holds of a request whose task waits there. -/
def Phase (pc : SpeakPc) (st : TtsStream) (ps : List Push) : Prop :=
  match pc with
  | .created | .announcing => st = {} ∧ ps = []
  | .waiting => st.Looping ps
  | .pacing => st.Looping ps ∧ frameBytes ≤ st.pending.length
  | .draining | .finishing | .unwinding _ => st.Accounted ps
  | .failing | .done _ => st.Accounted ps ∧ st.producer.active = false

theorem Phase.accounted {pc : SpeakPc} {st : TtsStream} {ps : List Push} (h : Phase pc st ps) :
    st.Accounted ps := by
  cases pc with
  | created | announcing =>
    rw [h.1, h.2]
    exact TtsStream.accounted_fresh
  | waiting => exact TtsStream.Looping.accounted h
  | pacing => exact h.1.accounted
  | draining | finishing | unwinding exit => exact h
  | failing | done result => exact h.1

/-- The same of request `k`. -/
def InPhase (k : ℕ) (s : Speaking) : Prop :=
  match s.tasks k with
  | none => s.streams k = {} ∧ s.block k = []
  | some task => Phase task.pc (s.streams k) (s.block k)

theorem InPhase.phase (h : InPhase k s) {task : SpeakTask} (htask : s.tasks k = some task) :
    Phase task.pc (s.streams k) (s.block k) := by
  unfold InPhase at h
  rwa [htask] at h

theorem inPhase_setTask {task : SpeakTask} (h : Phase task.pc (s.streams k) (s.block k)) :
    InPhase k (s.setTask k (some task)) := by
  have hafter : (s.setTask k (some task)).tasks k = some task := Function.update_self _ _ _
  unfold InPhase
  rw [hafter]
  exact h

theorem inPhase_await {pc : SpeakPc} {task : SpeakTask} (htask : s.tasks k = some task)
    (h : Phase pc (s.streams k) (s.block k)) : InPhase k (s.await k pc) := by
  rw [await, htask]
  exact inPhase_setTask h

@[simp] theorem block_emit (j : ℕ) (m : SpeechMessage) (k : ℕ) (s : Speaking) :
    (s.emit j m).block k = s.block k := by
  unfold block
  rw [pushed_emit]

theorem block_push (frame : Pcm) (s : Speaking) :
    (s.push k frame).1.block k = s.block k ++ [⟨k, frame, (s.push k frame).2⟩] := by
  unfold block
  rw [pushed_push, List.filter_append]
  simp

/-! ### One push -/

theorem stream_push (frame : Pcm) (s : Speaking) : (s.push k frame).1.streams k = s.streams k := rfl

theorem stream_pushFrame (s : Speaking) : (s.pushFrame k).1.streams k =
    { s.streams k with pending := (s.streams k).pending.drop frameBytes } := by
  unfold pushFrame
  rw [stream_push, stream_setPending]

theorem block_pushFrame (s : Speaking) : (s.pushFrame k).1.block k =
    s.block k ++ [⟨k, (s.streams k).pending.take frameBytes, (s.pushFrame k).2⟩] :=
  block_push _ (s.setPending k _)

theorem iteration_frame {st : TtsStream} {started : Bool} (h : st.iteration started = .frame) :
    frameBytes ≤ st.pending.length := by
  unfold TtsStream.iteration at h
  split at h
  · exact absurd h (by simp)
  · split_ifs at h with _ _ hlen
    exact hlen

theorem iteration_rest {st : TtsStream} {started : Bool} (h : st.iteration started = .rest) :
    st.streamError = none ∧ st.streamDone = true ∧ st.pending.length < frameBytes := by
  unfold TtsStream.iteration at h
  split at h
  · exact absurd h (by simp)
  · rename_i herr
    split_ifs at h with _ _ hlen hdone
    exact ⟨herr, hdone, Nat.lt_of_not_le hlen⟩

/-- A whole frame leaves the front of what is pending. -/
theorem open_pushFrame (h : (s.streams k).Open (s.block k))
    (hlen : frameBytes ≤ (s.streams k).pending.length) :
    ((s.pushFrame k).1.streams k).Open ((s.pushFrame k).1.block k) := by
  rw [block_pushFrame, stream_pushFrame]
  constructor
  · intro p hp
    rcases List.mem_append.mp hp with hp | hp
    · exact h.whole p hp
    · rw [List.mem_singleton.mp hp, List.length_take]
      omega
  · rw [List.map_append, List.flatten_append]
    simp only [List.map_cons, List.map_nil, List.flatten_singleton]
    rw [List.append_assoc, List.take_append_drop]
    exact h.sum

theorem accounted_pushFrame (h : (s.streams k).Looping (s.block k))
    (hlen : frameBytes ≤ (s.streams k).pending.length) :
    ((s.pushFrame k).1.streams k).Accounted ((s.pushFrame k).1.block k) := by
  refine ⟨Or.inl (open_pushFrame h.kept hlen), ?_⟩
  rw [block_pushFrame]
  exact TtsStream.taken_concat h.taken _

theorem looping_pushFrame (h : (s.streams k).Looping (s.block k))
    (hlen : frameBytes ≤ (s.streams k).pending.length) (haccepted : (s.pushFrame k).2 = true) :
    ((s.pushFrame k).1.streams k).Looping ((s.pushFrame k).1.block k) := by
  refine ⟨open_pushFrame h.kept hlen, ?_, fun p hp => ?_⟩
  · rw [stream_pushFrame]
    exact h.live
  · rw [block_pushFrame] at hp
    rcases List.mem_append.mp hp with hp | hp
    · exact h.taken p hp
    · rw [List.mem_singleton.mp hp]
      exact haccepted

/-- The rest is pushed only of a complete stream. -/
theorem accounted_pushRest (h : (s.streams k).Looping (s.block k)) {started : Bool}
    (hrest : (s.streams k).iteration started = .rest) :
    ((s.pushRest k).streams k).Accounted ((s.pushRest k).block k) := by
  obtain ⟨herr, hdone, hlen⟩ := iteration_rest hrest
  unfold pushRest
  split
  · exact h.accounted
  · rename_i hpending
    have hblock := block_push (k := k) (ljust frameBytes 0 (s.streams k).pending) (s.setPending k [])
    rw [stream_push, stream_setPending]
    refine ⟨Or.inr ⟨h.live.complete hdone herr, ?_⟩, hblock ▸ TtsStream.taken_concat h.taken _⟩
    have hwhole : ∀ f ∈ (s.block k).map Push.frame, f.length = frameBytes := by
      intro f hf
      obtain ⟨p, hp, rfl⟩ := List.mem_map.mp hf
      exact h.kept.whole p hp
    have haudio : blocks frameBytes 0 (s.streams k).audio =
        (s.block k).map Push.frame ++ [ljust frameBytes 0 (s.streams k).pending] := by
      rw [← h.kept.sum]
      exact blocks_of_tail TtsStream.frameBytes_pos hwhole (List.length_pos_iff.mpr hpending) hlen.le
    exact (congrArg (List.map Push.frame) hblock).trans (by rw [List.map_append]; exact haudio.symm)

/-! ### The task's run -/

theorem inPhase_handleExit {task : SpeakTask} (htask : s.tasks k = some task) (exit : Exit)
    (h : (s.streams k).Accounted (s.block k)) (hidle : (s.streams k).producer.active = false) :
    InPhase k (s.handleExit k exit) := by
  cases exit with
  | returned => exact inPhase_await htask ⟨h, hidle⟩
  | cancelled => exact inPhase_await (s := { s with receiver := _ }) htask ⟨h, hidle⟩
  | raised exc =>
    refine inPhase_await (s := s.emit k _) htask ⟨?_, hidle⟩
    rw [block_emit]
    exact h

theorem inPhase_leave {task : SpeakTask} (htask : s.tasks k = some task) (exit : Exit)
    (h : (s.streams k).Accounted (s.block k)) : InPhase k (s.leave k exit) := by
  unfold leave
  split
  · rename_i hactive
    have hopen := h.still_open hactive
    refine inPhase_await (s := s.setProducer k _) htask ?_
    rw [stream_setProducer]
    exact ⟨Or.inl ⟨hopen.whole, hopen.sum⟩, h.taken⟩
  · rename_i hidle
    exact inPhase_handleExit htask exit h (Bool.eq_false_iff.mpr hidle)

theorem inPhase_pushRest {task : SpeakTask} (htask : s.tasks k = some task)
    (h : (s.streams k).Looping (s.block k)) {started : Bool}
    (hrest : (s.streams k).iteration started = .rest) : InPhase k ((s.pushRest k).await k .draining) := by
  have hsame : (s.pushRest k).tasks = s.tasks := by
    unfold pushRest
    split <;> rfl
  exact inPhase_await (by rw [hsame, htask]) (accounted_pushRest h hrest)

/-- By induction on the frames that are late: a push keeps `Looping`. -/
theorem inPhase_loop (late : ℕ) (started : Bool) {s : Speaking} {task : SpeakTask}
    (htask : s.tasks k = some task) (h : (s.streams k).Looping (s.block k)) :
    InPhase k (s.loop k late started) := by
  induction late generalizing started s with
  | zero =>
    unfold loop
    split
    · exact inPhase_leave htask _ h.accounted
    · exact inPhase_await htask h
    · rename_i hrest
      exact inPhase_pushRest htask h hrest
    · rename_i hframe
      exact inPhase_await htask ⟨h, iteration_frame hframe⟩
  | succ late ih =>
    unfold loop
    split
    · exact inPhase_leave htask _ h.accounted
    · exact inPhase_await htask h
    · rename_i hrest
      exact inPhase_pushRest htask h hrest
    · rename_i hframe
      have hlen := iteration_frame hframe
      dsimp only
      split
      · rename_i haccepted
        exact ih true htask (looping_pushFrame h hlen haccepted)
      · exact inPhase_await (s := (s.pushFrame k).1) htask (accounted_pushFrame h hlen)

theorem inPhase_interrupt {task : SpeakTask} (htask : s.tasks k = some task)
    (h : Phase task.pc (s.streams k) (s.block k)) (ht : s.interrupt k task.pc = some t) :
    InPhase k t := by
  generalize task.pc = pc at h ht
  have haccounted := h.accounted
  cases pc with
  | created | announcing =>
    obtain rfl := Option.some.inj ht
    refine inPhase_await htask ⟨haccounted, ?_⟩
    rw [h.1]
    rfl
  | failing =>
    obtain rfl := Option.some.inj ht
    exact inPhase_await htask h
  | waiting | pacing | draining | finishing =>
    obtain rfl := Option.some.inj ht
    exact inPhase_leave htask _ haccounted
  | unwinding exit =>
    simp only [interrupt] at ht
    split at ht
    · exact absurd ht (by simp)
    · rename_i hidle
      obtain rfl := Option.some.inj ht
      exact inPhase_handleExit htask exit h (Bool.eq_false_iff.mpr hidle)
  | done result => exact absurd ht (by simp [interrupt])

theorem inPhase_resume {task : SpeakTask} (htask : s.tasks k = some task)
    (h : Phase task.pc (s.streams k) (s.block k)) {raised : Option String} {late : ℕ}
    (ht : s.resume k task.text task.pc raised late = some t) : InPhase k t := by
  generalize task.pc = pc at h ht
  cases pc with
  | created =>
    obtain rfl := Option.some.inj ht
    refine inPhase_await (s := s.emit k _) htask ?_
    rw [block_emit]
    exact h
  | announcing =>
    cases raised with
    | none =>
      obtain rfl := Option.some.inj ht
      refine inPhase_loop late false (s := s.setProducer k _) htask ?_
      have hblock : (s.setProducer k .created).block k = [] := h.2
      rw [stream_setProducer, h.1, hblock]
      exact ⟨⟨fun _ hp => absurd hp List.not_mem_nil, rfl⟩, Or.inr ⟨rfl, Or.inl rfl⟩,
        fun _ hp => absurd hp List.not_mem_nil⟩
    | some exc =>
      obtain rfl := Option.some.inj ht
      refine inPhase_await htask ?_
      rw [h.1, h.2]
      exact ⟨TtsStream.accounted_fresh, rfl⟩
  | waiting =>
    obtain rfl := Option.some.inj ht
    exact inPhase_loop late false htask h
  | pacing =>
    obtain rfl := Option.some.inj ht
    split
    · rename_i haccepted
      exact inPhase_loop late true (s := (s.pushFrame k).1) htask (looping_pushFrame h.1 h.2 haccepted)
    · exact inPhase_await (s := (s.pushFrame k).1) htask (accounted_pushFrame h.1 h.2)
  | draining =>
    obtain rfl := Option.some.inj ht
    refine inPhase_await (s := s.emit k _) htask ?_
    rw [block_emit]
    exact h
  | finishing =>
    cases raised with
    | none =>
      obtain rfl := Option.some.inj ht
      exact inPhase_leave htask _ h
    | some exc =>
      obtain rfl := Option.some.inj ht
      exact inPhase_leave htask _ h
  | unwinding exit =>
    simp only [resume] at ht
    split at ht
    · exact absurd ht (by simp)
    · rename_i hidle
      obtain rfl := Option.some.inj ht
      exact inPhase_handleExit htask exit h (Bool.eq_false_iff.mpr hidle)
  | failing =>
    cases raised with
    | none =>
      obtain rfl := Option.some.inj ht
      exact inPhase_await htask h
    | some exc =>
      obtain rfl := Option.some.inj ht
      exact inPhase_await htask h
  | done result => exact absurd ht (by simp [resume])

/-- A run of the task advances it, and keeps the accounting. -/
theorem run_advance (h : InPhase k s) {raised : Option String} {late : ℕ}
    (ht : s.run k raised late = some t) : Advance k s t ∧ InPhase k t := by
  obtain ⟨task, htask, ht⟩ := Option.bind_eq_some_iff.mp ht
  have hphase := h.phase htask
  split at ht
  · exact ⟨advance_interrupt ht, inPhase_interrupt htask hphase ht⟩
  · exact ⟨advance_resume ht, inPhase_resume htask hphase ht⟩

/-! ## All requests -/

/-- The pushes of every request are accounted for; only the current one's task and producer run. -/
structure Sound (s : Speaking) : Prop where
  fed : ∀ k, (s.streams k).Fed
  unborn : ∀ k, s.current < k → s.tasks k = none
  future : ∀ k, s.current < k → s.streams k = {} ∧ s.block k = []
  finished : ∀ k, k < s.current → ∀ task, s.tasks k = some task → ∃ result, task.pc = .done result
  past : ∀ k, k < s.current →
    (s.streams k).Accounted (s.block k) ∧ (s.streams k).producer.active = false
  now : InPhase s.current s
  ordered : s.pushed = (List.range (s.current + 1)).flatMap fun k => s.block k

theorem InPhase.accounted (h : InPhase k s) : (s.streams k).Accounted (s.block k) := by
  unfold InPhase at h
  split at h
  · rw [h.1, h.2]
    exact TtsStream.accounted_fresh
  · exact Phase.accounted h

/-- The accounting is about the requests, their task and what was pushed. -/
theorem Sound.of_same (h : Sound s) (htasks : ∀ k, k ≠ s.current → t.tasks k = s.tasks k)
    (hstreams : t.streams = s.streams) (hcurrent : t.current = s.current)
    (hphase : InPhase s.current t) (hpushed : t.pushed = s.pushed) : Sound t := by
  have hblock : ∀ k, t.block k = s.block k := fun k => by
    unfold block
    rw [hpushed]
  refine ⟨fun k => ?_, fun k hk => ?_, fun k hk => ?_, fun k hk => ?_, fun k hk => ?_, hcurrent ▸ hphase, ?_⟩
  · rw [hstreams]
    exact h.fed k
  · rw [hcurrent] at hk
    rw [htasks k (Nat.ne_of_gt hk)]
    exact h.unborn k hk
  · rw [hstreams, hblock]
    exact h.future k (hcurrent ▸ hk)
  · rw [hcurrent] at hk
    rw [htasks k (Nat.ne_of_lt hk)]
    exact h.finished k hk
  · rw [hstreams, hblock]
    exact h.past k (hcurrent ▸ hk)
  · rw [hpushed, hcurrent, h.ordered]
    exact List.flatMap_congr fun k _ => (hblock k).symm

theorem Sound.accounted (h : Sound s) (k : ℕ) : (s.streams k).Accounted (s.block k) := by
  rcases Nat.lt_trichotomy k s.current with hk | rfl | hk
  · exact (h.past k hk).1
  · exact h.now.accounted
  · rw [(h.future k hk).1, (h.future k hk).2]
    exact TtsStream.accounted_fresh

/-- Pushes of one request change no other block. -/
theorem Advance.block (h : Advance k s t) {j : ℕ} (hj : j ≠ k) : t.block j = s.block j := by
  obtain ⟨new, hnew, hmine⟩ := h.pushed
  have hnone : new.filter (fun p => p.request = j) = [] := by
    refine List.filter_eq_nil_iff.mpr fun p hp => ?_
    rw [hmine p hp, decide_eq_true_eq]
    exact fun heq => hj heq.symm
  unfold Speaking.block
  rw [hnew, List.filter_append, hnone, List.append_nil]

theorem sound_advance (h : Sound s) (hadv : Advance s.current s t) (hnow : InPhase s.current t) : Sound t := by
  have hcurrent := hadv.current
  constructor
  · intro k
    by_cases hk : k = s.current
    · have hfed : (s.streams s.current).Fed := h.fed s.current
      unfold TtsStream.Fed at hfed ⊢
      rw [hk, hadv.upsampler, hadv.chunks]
      exact hfed
    · rw [hadv.others k hk]
      exact h.fed k
  · intro k hk
    rw [hcurrent] at hk
    rw [hadv.tasks k (Nat.ne_of_gt hk)]
    exact h.unborn k hk
  · intro k hk
    rw [hcurrent] at hk
    rw [hadv.others k (Nat.ne_of_gt hk), hadv.block (Nat.ne_of_gt hk)]
    exact h.future k hk
  · intro k hk
    rw [hcurrent] at hk
    rw [hadv.tasks k (Nat.ne_of_lt hk)]
    exact h.finished k hk
  · intro k hk
    rw [hcurrent] at hk
    rw [hadv.others k (Nat.ne_of_lt hk), hadv.block (Nat.ne_of_lt hk)]
    exact h.past k hk
  · exact hcurrent ▸ hnow
  · obtain ⟨new, hnew, hmine⟩ := hadv.pushed
    have hblock : t.block s.current = s.block s.current ++ new := by
      unfold Speaking.block
      rw [hnew, List.filter_append]
      congr 1
      refine List.filter_eq_self.mpr fun p hp => ?_
      rw [hmine p hp, decide_eq_true_eq]
    have hothers : (List.range s.current).flatMap (fun k => t.block k) =
        (List.range s.current).flatMap fun k => s.block k := by
      refine List.flatMap_congr fun k hk => hadv.block ?_
      have := List.mem_range.mp hk
      omega
    have hold := h.ordered
    rw [List.range_succ, List.flatMap_append, List.flatMap_singleton] at hold
    rw [hcurrent, List.range_succ, List.flatMap_append, List.flatMap_singleton, hothers, hblock, hnew,
      hold, List.append_assoc]

/-- Only the current request has an active producer. -/
theorem Sound.current_of_active (h : Sound s) {k : ℕ} (hactive : (s.streams k).producer.active = true) :
    k = s.current := by
  rcases Nat.lt_trichotomy k s.current with hk | hk | hk
  · rw [(h.past k hk).2] at hactive
    exact absurd hactive (by simp)
  · exact hk
  · rw [(h.future k hk).1] at hactive
    exact absurd hactive (by decide)

theorem phase_move {pc : SpeakPc} {st st' : TtsStream} {ps : List Push} (h : Phase pc st ps)
    (hfed : st.Fed) (hmove : TtsStream.ProducerMove st st') : Phase pc st' ps := by
  have hactive := hmove.active
  cases pc with
  | created | announcing =>
    rw [h.1] at hactive
    exact absurd hactive (by decide)
  | waiting => exact h.move hfed hmove
  | pacing =>
    obtain ⟨more, hpending, -⟩ := hmove.grows
    refine ⟨h.1.move hfed hmove, ?_⟩
    rw [hpending, List.length_append]
    exact le_trans h.2 (Nat.le_add_right _ _)
  | draining | finishing | unwinding exit => exact TtsStream.Accounted.move h hfed hmove
  | failing | done result =>
    rw [h.2] at hactive
    exact absurd hactive (by simp)

/-- A move of a producer keeps the accounting. -/
theorem sound_produced (h : Sound s) {k : ℕ} {st : TtsStream}
    (hmove : TtsStream.ProducerMove (s.streams k) st) : Sound (s.setStream k st) := by
  obtain rfl := h.current_of_active hmove.active
  have hother : ∀ k, k ≠ s.current → (s.setStream s.current st).streams k = s.streams k :=
    fun k hk => Function.update_of_ne hk _ _
  have hself : (s.setStream s.current st).streams s.current = st := Function.update_self _ _ _
  constructor
  · intro k
    by_cases hk : k = s.current
    · rw [hk, hself]
      exact hmove.fed (h.fed s.current)
    · rw [hother k hk]
      exact h.fed k
  · exact h.unborn
  · intro k hk
    have hne : k ≠ s.current := Nat.ne_of_gt hk
    rw [hother k hne]
    exact h.future k hk
  · exact h.finished
  · intro k hk
    have hne : k ≠ s.current := Nat.ne_of_lt hk
    rw [hother k hne]
    exact h.past k hk
  · have hnow := h.now
    have hsame : (s.setStream s.current st).tasks s.current = s.tasks s.current := rfl
    change InPhase s.current (s.setStream s.current st)
    unfold InPhase at hnow ⊢
    rw [hself, hsame]
    cases htask : s.tasks s.current with
    | none =>
      rw [htask] at hnow
      have hactive := hmove.active
      rw [hnow.1] at hactive
      exact absurd hactive (by decide)
    | some task =>
      rw [htask] at hnow
      exact phase_move hnow (h.fed s.current) hmove
  · exact h.ordered

theorem pc_of_isDone {task : SpeakTask} (h : task.isDone = true) :
    ∃ result, task.pc = .done result := by
  unfold SpeakTask.isDone at h
  split at h
  · rename_i result hpc
    exact ⟨result, hpc⟩
  · exact absurd h (by simp)

/-- A new task begins a new request, when there is no task or it is done. -/
theorem sound_createTask (h : Sound s) (text : String)
    (hdone : ∀ task, s.ttsTask = some task → ∃ result, task.pc = .done result) :
    Sound (s.createTask text) := by
  have hother : ∀ k, k ≠ s.current + 1 → (s.createTask text).tasks k = s.tasks k :=
    fun k hk => Function.update_of_ne hk _ _
  have hidle : (s.streams s.current).producer.active = false := by
    have hnow := h.now
    unfold InPhase at hnow
    cases htask : s.tasks s.current with
    | none =>
      rw [htask] at hnow
      rw [hnow.1]
      rfl
    | some task =>
      obtain ⟨result, hpc⟩ := hdone task htask
      have hphase := h.now.phase htask
      rw [hpc] at hphase
      exact hphase.2
  constructor
  · exact h.fed
  · intro k hk
    rw [hother k (Nat.ne_of_gt hk)]
    exact h.unborn k (Nat.lt_of_succ_lt hk)
  · intro k hk
    exact h.future k (Nat.lt_of_succ_lt hk)
  · intro k hk
    rw [hother k (Nat.ne_of_lt hk)]
    rcases Nat.lt_succ_iff_lt_or_eq.mp hk with hk | rfl
    · exact h.finished k hk
    · exact hdone
  · intro k hk
    rcases Nat.lt_succ_iff_lt_or_eq.mp hk with hk | rfl
    · exact h.past k hk
    · exact ⟨h.now.accounted, hidle⟩
  · exact inPhase_setTask (s := { s with current := s.current + 1 }) (h.future (s.current + 1) (Nat.lt_succ_self _))
  · have hfresh : s.block (s.current + 1) = [] := (h.future (s.current + 1) (Nat.lt_succ_self _)).2
    have hordered := h.ordered
    change s.pushed = (List.range (s.current + 1 + 1)).flatMap fun k => s.block k
    rw [List.range_succ, List.flatMap_append, List.flatMap_singleton, hfresh, List.append_nil]
    exact hordered

theorem sound_emit (h : Sound s) (k : ℕ) (m : SpeechMessage) : Sound (s.emit k m) := by
  refine h.of_same (fun _ _ => rfl) rfl rfl ?_ (pushed_emit k m s)
  have hnow := h.now
  unfold InPhase at hnow ⊢
  rw [block_emit]
  exact hnow

/-- Only the current request has a task that runs. -/
theorem Sound.current_of_run (h : Sound s) {k : ℕ} {raised : Option String} {late : ℕ}
    (ht : s.run k raised late = some t) : k = s.current := by
  obtain ⟨task, htask, ht⟩ := Option.bind_eq_some_iff.mp ht
  rcases Nat.lt_trichotomy k s.current with hk | hk | hk
  · obtain ⟨result, hpc⟩ := h.finished k hk task htask
    rw [hpc] at ht
    split at ht
    · exact absurd ht (by simp [interrupt])
    · exact absurd ht (by simp [resume])
  · exact hk
  · exact absurd (htask.symm.trans (h.unborn k hk)) (by simp)

/-- Every step keeps the accounting. -/
theorem sound_step (h : Sound s) {e : SpeakEvent} (ht : s.step e = some t) : Sound t := by
  cases e with
  | request text =>
    simp only [step, request] at ht
    split_ifs at ht
    · obtain rfl := Option.some.inj ht
      have hsound := sound_emit h s.current (.error "TTS is not configured on this bridge")
      exact hsound.of_same (fun _ _ => rfl) rfl rfl hsound.now rfl
    · obtain rfl := Option.some.inj ht
      exact h
    · split at ht
      · rename_i hnone
        obtain rfl := Option.some.inj ht
        exact sound_createTask h _ fun task htask => by simp [hnone] at htask
      · rename_i task htask
        split at ht
        · rename_i hisDone
          obtain rfl := Option.some.inj ht
          refine sound_createTask h _ fun task' htask' => ?_
          obtain rfl := Option.some.inj (htask.symm.trans htask')
          exact pc_of_isDone hisDone
        · obtain rfl := Option.some.inj ht
          have hphase : Phase task.pc (s.streams s.current) (s.block s.current) := h.now.phase htask
          have hcancelled : InPhase s.current (s.setTask s.current (some { task with cancelling := true })) :=
            inPhase_setTask hphase
          exact h.of_same (fun k hk => Function.update_of_ne hk _ _) rfl rfl hcancelled rfl
  | refused =>
    simp only [step, refused] at ht
    split at ht
    · obtain rfl := Option.some.inj ht
      exact h.of_same (fun _ _ => rfl) rfl rfl h.now rfl
    · exact absurd ht (by simp)
  | resumed =>
    simp only [step, resumed] at ht
    split at ht
    · obtain rfl := Option.some.inj ht
      exact h.of_same (fun _ _ => rfl) rfl rfl h.now rfl
    · rename_i htask
      obtain rfl := Option.some.inj ht
      refine sound_createTask
        (s := { s with call := .idle, receiver := s.receiver.clearAudioBuffer })
        (h.of_same (fun _ _ => rfl) rfl rfl h.now rfl) _ fun task htask' => ?_
      obtain rfl := Option.some.inj (htask.symm.trans htask')
      exact ⟨_, rfl⟩
    · exact absurd ht (by simp)
  | run k raised late =>
    obtain rfl := h.current_of_run ht
    obtain ⟨hadv, hnow⟩ := run_advance h.now ht
    exact sound_advance h hadv hnow
  | produce k =>
    obtain ⟨st, hst, rfl⟩ := Option.map_eq_some_iff.mp ht
    exact sound_produced h (TtsStream.produce_move hst)
  | chunk k pcm =>
    obtain ⟨st, hst, rfl⟩ := Option.map_eq_some_iff.mp ht
    exact sound_produced h (TtsStream.chunk_move hst)
  | ends k exit =>
    obtain ⟨st, hst, rfl⟩ := Option.map_eq_some_iff.mp ht
    exact sound_produced h (TtsStream.ends_move hst)
  | dequeue =>
    obtain ⟨receiver, -, rfl⟩ := Option.map_eq_some_iff.mp ht
    exact h.of_same (fun _ _ => rfl) rfl rfl h.now rfl
  | connected present =>
    obtain rfl := Option.some.inj ht
    exact h.of_same (fun _ _ => rfl) rfl rfl h.now rfl

/-- A session that has not been asked to speak. -/
theorem sound_initial (tts : Bool) : Sound { tts := tts } := by
  constructor
  · exact fun _ => rfl
  · exact fun _ _ => rfl
  · exact fun _ _ => ⟨rfl, rfl⟩
  · exact fun k hk => absurd hk (Nat.not_lt_zero k)
  · exact fun k hk => absurd hk (Nat.not_lt_zero k)
  · exact ⟨rfl, rfl⟩
  · rfl

/-! ## After an interruption -/

/-- Nothing is left of the request: it is over, and only later ones have frames in the queue. -/
def Gone (k : ℕ) (s : Speaking) : Prop :=
  k < s.current ∧ ∀ f ∈ s.receiver.pushQueue, k < f.request

/-- What is gone stays gone: a step queues frames of the current request only. -/
theorem gone_step {k : ℕ} (hgone : Gone k s) (h : Sound s) {e : SpeakEvent}
    (ht : s.step e = some t) : Gone k t := by
  obtain ⟨hk, hqueue⟩ := hgone
  cases e with
  | request text =>
    simp only [step, request] at ht
    split_ifs at ht
    · obtain rfl := Option.some.inj ht
      exact ⟨hk, hqueue⟩
    · obtain rfl := Option.some.inj ht
      exact ⟨hk, hqueue⟩
    · split at ht
      · obtain rfl := Option.some.inj ht
        exact ⟨Nat.lt_succ_of_lt hk, hqueue⟩
      · split at ht
        · obtain rfl := Option.some.inj ht
          exact ⟨Nat.lt_succ_of_lt hk, hqueue⟩
        · obtain rfl := Option.some.inj ht
          exact ⟨hk, hqueue⟩
  | refused =>
    simp only [step, refused] at ht
    split at ht
    · obtain rfl := Option.some.inj ht
      exact ⟨hk, hqueue⟩
    · exact absurd ht (by simp)
  | resumed =>
    simp only [step, resumed] at ht
    split at ht
    · obtain rfl := Option.some.inj ht
      exact ⟨hk, hqueue⟩
    · obtain rfl := Option.some.inj ht
      exact ⟨Nat.lt_succ_of_lt hk, fun f hf => absurd hf List.not_mem_nil⟩
    · exact absurd ht (by simp)
  | run k' raised late =>
    obtain rfl := h.current_of_run ht
    obtain ⟨hadv, -⟩ := run_advance h.now ht
    refine ⟨by rw [hadv.current]; exact hk, fun f hf => ?_⟩
    rcases hadv.queue f hf with hold | hnew
    · exact hqueue f hold
    · omega
  | produce k' =>
    obtain ⟨st, -, rfl⟩ := Option.map_eq_some_iff.mp ht
    exact ⟨hk, hqueue⟩
  | chunk k' pcm =>
    obtain ⟨st, -, rfl⟩ := Option.map_eq_some_iff.mp ht
    exact ⟨hk, hqueue⟩
  | ends k' exit =>
    obtain ⟨st, -, rfl⟩ := Option.map_eq_some_iff.mp ht
    exact ⟨hk, hqueue⟩
  | dequeue =>
    obtain ⟨receiver, hreceiver, rfl⟩ := Option.map_eq_some_iff.mp ht
    exact ⟨hk, fun f hf => hqueue f (LivekitReceiver.mem_dequeue hreceiver hf)⟩
  | connected present =>
    obtain rfl := Option.some.inj ht
    exact ⟨hk, hqueue⟩

/-- The call of `speak` that has interrupted the current request returns. -/
def Interrupts (s : Speaking) (e : SpeakEvent) : Prop :=
  e = .resumed ∧ (∃ text, s.call = .interrupting text) ∧
    ∀ task exc, s.ttsTask = some task → task.pc ≠ .done (.raised exc)

/-- No frame of the request is in the push queue, and its producer is not running. -/
def Quiet (k : ℕ) (s : Speaking) : Prop :=
  (∀ f ∈ s.receiver.pushQueue, f.request ≠ k) ∧ (s.streams k).producer.active = false

theorem Gone.quiet {k : ℕ} (hgone : Gone k s) (h : Sound s) : Quiet k s :=
  ⟨fun f hf => Nat.ne_of_gt (hgone.2 f hf), (h.past k hgone.1).2⟩

/-- A request arrives while the task of the one before is not done. -/
structure ArrivesOver (s : Speaking) (text : String) : Prop where
  call : s.call = .idle
  tts : s.tts = true
  text : strip text ≠ ""
  unfinished : ∃ task, s.ttsTask = some task ∧ task.isDone = false

/-- Such a request cancels the task, and its call of `speak` waits for it. -/
theorem ArrivesOver.waits {text : String} (h : ArrivesOver s text) :
    ∃ t, s.step (.request text) = some t ∧ t.call = .interrupting (strip text) ∧ t.current = s.current := by
  obtain ⟨task, htask, hdone⟩ := h.unfinished
  refine ⟨{ s.setTask s.current (some { task with cancelling := true }) with
    call := .interrupting (strip text) }, ?_, rfl, rfl⟩
  simp [step, request, h.call, h.tts, h.text, htask, hdone]

/-- Until that call returns, it is the one that runs, and no request begins. -/
theorem interrupting_step {text : String} (h : Sound s) (hcall : s.call = .interrupting text) {e : SpeakEvent}
    (he : e ≠ .resumed) (ht : s.step e = some t) : t.call = .interrupting text ∧ t.current = s.current := by
  cases e with
  | request text' => exact absurd ht (by simp [step, request, hcall])
  | refused => exact absurd ht (by simp [step, refused, hcall])
  | resumed => exact absurd rfl he
  | run k raised late =>
    obtain rfl := h.current_of_run ht
    obtain ⟨hadv, -⟩ := run_advance h.now ht
    exact ⟨hadv.call.trans hcall, hadv.current⟩
  | produce k | chunk k pcm | ends k exit =>
    obtain ⟨st, -, rfl⟩ := Option.map_eq_some_iff.mp ht
    exact ⟨hcall, rfl⟩
  | dequeue =>
    obtain ⟨receiver, -, rfl⟩ := Option.map_eq_some_iff.mp ht
    exact ⟨hcall, rfl⟩
  | connected present =>
    obtain rfl := Option.some.inj ht
    exact ⟨hcall, rfl⟩

theorem gone_of_interrupts {e : SpeakEvent} (hint : Interrupts s e) (ht : s.step e = some t) :
    Gone s.current t := by
  obtain ⟨rfl, -, hnot⟩ := hint
  simp only [step, resumed] at ht
  split at ht
  · rename_i htask
    exact absurd rfl (hnot _ _ htask)
  · obtain rfl := Option.some.inj ht
    exact ⟨Nat.lt_succ_self _, fun f hf => absurd hf List.not_mem_nil⟩
  · exact absurd ht (by simp)

end Speaking

/-! ## Runs -/

/-- The state of a session after a schedule. -/
def speaking (tts : Bool) (es : List SpeakEvent) : Speaking := Run.final Speaking.step { tts := tts } es

open Speaking in
theorem speaking_sound (tts : Bool) (es : List SpeakEvent) : Speaking.Sound (speaking tts es) :=
  Run.final_of_step (fun _ _ _ h ht => sound_step h ht) (sound_initial tts) es

open Speaking in
/-- When a call of `speak` that has interrupted a request returns, the request is quiet from then on. -/
theorem quiet_after (tts : Bool) {before later : List SpeakEvent} {e : SpeakEvent} {t : Speaking}
    (ht : (speaking tts before).step e = some t) (hint : Interrupts (speaking tts before) e) :
    ∀ u ∈ Run.states Speaking.step t later, Quiet (speaking tts before).current u := by
  intro u hu
  have hstart : Speaking.Sound t ∧ Gone (speaking tts before).current t :=
    ⟨sound_step (speaking_sound tts before) ht, gone_of_interrupts hint ht⟩
  have hall : ∀ u ∈ Run.states Speaking.step t later,
      Speaking.Sound u ∧ Gone (speaking tts before).current u :=
    Run.forall_states hstart fun x hx hbefore =>
      ⟨sound_step hbefore.1 (Run.mem_trace hx).2, gone_step hbefore.2 hbefore.1 (Run.mem_trace hx).2⟩
  exact (hall u hu).2.quiet (hall u hu).1

open Speaking in
/-- From the arrival of a request over an unfinished one to the return of its call, the call waits for the task of
that one. -/
theorem interrupting_until (tts : Bool) {before mid : List SpeakEvent} {text : String}
    (h : ArrivesOver (speaking tts before) text)
    (hmid : ∀ x ∈ Run.trace Speaking.step (speaking tts (before ++ [.request text])) mid, x.event ≠ .resumed) :
    (speaking tts (before ++ .request text :: mid)).call = .interrupting (strip text) ∧
      (speaking tts (before ++ .request text :: mid)).current = (speaking tts before).current := by
  obtain ⟨t, ht, hcall, hcurrent⟩ := h.waits
  have hstart : speaking tts (before ++ [.request text]) = t := Run.final_concat ht
  have hsplit : speaking tts (before ++ .request text :: mid) = Run.final Speaking.step t mid := by
    rw [List.append_cons, speaking, Run.final_append, ← speaking, hstart]
  rw [hstart] at hmid
  rw [hsplit]
  have hall : ∀ u ∈ Run.states Speaking.step t mid, Speaking.Sound u ∧
      u.call = .interrupting (strip text) ∧ u.current = (speaking tts before).current := by
    refine Run.forall_states ⟨hstart ▸ speaking_sound tts _, hcall, hcurrent⟩ fun x hx hbefore => ?_
    have hstep := (Run.mem_trace hx).2
    obtain ⟨hkept, hsame⟩ := interrupting_step hbefore.1 hbefore.2.1 (hmid x hx) hstep
    exact ⟨sound_step hbefore.1 hstep, hkept, hsame.trans hbefore.2.2⟩
  exact (hall _ (Run.final_mem_states t mid)).2

open Speaking in
/-- **Barge-in.** In every run the pushes are one block per request, in the order of the requests; each
block is a prefix of the frame sequence of its request, and what the receiver accepted of it comes
first; and from the moment on when a call of `speak` that has interrupted a request returns, no frame of
that request is in the push queue and its producer is not running. A request that arrives over an unfinished one
makes such a call: when it returns, nothing is left of the one before. -/
theorem barge_in (tts : Bool) (es : List SpeakEvent) :
    (speaking tts es).pushed =
        ((List.range ((speaking tts es).current + 1)).flatMap fun k => (speaking tts es).block k) ∧
      (∀ k, ((speaking tts es).block k).map Push.frame <+:
          ((speaking tts es).streams k).frameSequence ∧
        ((speaking tts es).block k).filter Push.accepted <+: (speaking tts es).block k) ∧
      (∀ before e later t, es = before ++ e :: later → (speaking tts before).step e = some t →
        Interrupts (speaking tts before) e →
        ∀ u ∈ Run.states Speaking.step t later, Quiet (speaking tts before).current u) ∧
      ∀ before text mid later t, es = (before ++ .request text :: mid) ++ .resumed :: later →
        ArrivesOver (speaking tts before) text →
        (∀ x ∈ Run.trace Speaking.step (speaking tts (before ++ [.request text])) mid, x.event ≠ .resumed) →
        (speaking tts (before ++ .request text :: mid)).step .resumed = some t →
        (∀ task exc, (speaking tts (before ++ .request text :: mid)).ttsTask = some task →
          task.pc ≠ .done (.raised exc)) →
        ∀ u ∈ Run.states Speaking.step t later, Quiet (speaking tts before).current u := by
  refine ⟨(speaking_sound tts es).ordered, fun k => ?_, ?_, ?_⟩
  · have haccounted := (speaking_sound tts es).accounted k
    exact ⟨haccounted.first_frames, haccounted.taken⟩
  · exact fun before e later t _ ht hint => quiet_after tts ht hint
  · intro before text mid later t _ harrives hmid ht hnot
    obtain ⟨hcall, hcurrent⟩ := interrupting_until tts harrives hmid
    rw [← hcurrent]
    exact quiet_after tts ht ⟨rfl, ⟨_, hcall⟩, hnot⟩

/-- A request interrupts one that has pushed three frames and waits to push the next. -/
def interruption : List SpeakEvent :=
  [.request "one", .run 1 none 0, .run 1 none 0, .produce 1, .chunk 1 (List.replicate 4804 1), .run 1 none 2,
    .run 1 none 0, .request "two", .run 1 none 0, .ends 1 .cancelled, .run 1 none 0, .resumed]

example : ((speaking true interruption).current, ((speaking true interruption).block 1).length,
    (speaking true interruption).receiver.pushQueue.length) = (2, 3, 0) := by decide +kernel

end SenseVoice.Bridge
