import Mathlib.Data.List.Basic
import SenseVoice.Bridge.RealSession
import SenseVoice.Lib.Run

/-!
# The reader tasks of the LiveKit receiver (`bridge/bridge/livekit_receiver.py`)

Model of `start`, `_read_track` and `stop`, and of the tasks they create, one step for each thing that the event loop
runs. `start` and `stop` may run at the same time; a track may be subscribed whenever the event loop runs.

* A reader is unfinished (`Live`) until its task is done. It is `created` before its first turn and `reading` after it;
  then each event of its stream brings the frames that the resampler makes of it. It ends when the stream ends, when
  something raises (which is logged), or when it is cancelled: a cancelled task only ends.
* `slot` is `self._reader_task`: the number of the reader it holds.
* Of `_send_loop` only its task is here (`PushQueue.lean` has its frames): it ends when it takes the end marker or is
  cancelled. Putting the marker changes nothing else.
* `calls` are the calls of `on_pcm`, with the number of the reader that made them; no definition reads it.

Results:
* `OneReader.step`: the invariant of a run in which no track is subscribed while a reader is unfinished;
* **`stopped_silent_iff`**: exactly these runs have one feeding reader at a time and none after `stop`.
-/

namespace SenseVoice.Bridge

open Lib

/-- Where a `_read_track` task is. -/
inductive ReaderPhase where
  | created
  | reading
  | done
deriving DecidableEq

/-- A `_read_track` task. -/
structure Reader (τ : Type) where
  track : τ
  phase : ReaderPhase := .created
  cancelling : Bool := false

/-- Where `start` waits. -/
inductive StartPoint where
  | connecting
  | publishing
  | returned
  | raised
deriving DecidableEq

/-- The task of `_send_loop`. -/
inductive SenderPhase where
  | absent
  | running
  | done
deriving DecidableEq

/-- Where `stop` waits. -/
inductive StopPoint where
  | uncalled
  | awaitingReader (i : ℕ)
  | awaitingSender
  | disconnecting
  | returned
deriving DecidableEq

/-- `LivekitReceiver` with its tasks. -/
structure ReaderTasks (τ : Type) where
  readers : List (Reader τ) := []
  slot : Option ℕ := none
  startAt : StartPoint := .connecting
  room : Bool := false
  sender : SenderPhase := .absent
  stopAt : StopPoint := .uncalled
  calls : List (ℕ × Pcm) := []

/-- What the event loop runs next. -/
inductive ReceiverEvent (τ : Type) where
  /-- `room.connect` returns. -/
  | connected
  /-- `publish_track` returns. -/
  | published
  /-- One of the two raises. -/
  | startRaised
  /-- `_on_track_subscribed`; `audio` is the test on `track.kind`. -/
  | trackSubscribed (audio : Bool) (track : τ)
  /-- The first turn of a reader. -/
  | readerBegins (i : ℕ)
  /-- The frames of one event of its stream. -/
  | streamEvent (i : ℕ) (frames : List Pcm)
  | readerEnds (i : ℕ)
  | senderEnds
  | stopCalled
  | stopResumes

namespace ReaderTasks

variable {τ : Type}

/-- The reader changes. -/
def modifyReader (i : ℕ) (f : Reader τ → Reader τ) (r : ReaderTasks τ) : ReaderTasks τ :=
  { r with readers := r.readers.modify i f }

/-- `task.done()`. -/
def readerDone (i : ℕ) (r : ReaderTasks τ) : Bool := r.readers[i]?.all fun reader => reader.phase = .done

/-- `stop` from the room on. -/
def stopRoom (r : ReaderTasks τ) : ReaderTasks τ :=
  if r.room then { r with stopAt := .disconnecting } else { r with stopAt := .returned }

/-- `stop` from the end marker on. -/
def stopSender (r : ReaderTasks τ) : ReaderTasks τ :=
  if r.sender = .running then { r with stopAt := .awaitingSender } else r.stopRoom

/-- `stop`, to its first wait. -/
def stop (r : ReaderTasks τ) : ReaderTasks τ :=
  match r.slot with
  | some i =>
    if r.readerDone i then r.stopSender
    else { r.modifyReader i fun reader => { reader with cancelling := true } with stopAt := .awaitingReader i }
  | none => r.stopSender

/-- `stop`, from where it waits. -/
def stopResume (r : ReaderTasks τ) : Option (ReaderTasks τ) :=
  match r.stopAt with
  | .awaitingReader i => if r.readerDone i then some r.stopSender else none
  | .awaitingSender => if r.sender = .running then none else some r.stopRoom
  | .disconnecting => some { r with room := false, stopAt := .returned }
  | .uncalled | .returned => none

/-- `_on_track_subscribed` for an audio track. -/
def subscribe (track : τ) (r : ReaderTasks τ) : ReaderTasks τ :=
  { r with
    readers := r.readers ++ [{ track := track }]
    slot := some r.readers.length }

/-- The loop over the frames of an event: `if pcm: self.on_pcm(pcm, ..)`. -/
def feed (i : ℕ) (frames : List Pcm) (r : ReaderTasks τ) : ReaderTasks τ :=
  { r with calls := r.calls ++ (frames.filter (· ≠ [])).map fun pcm => (i, pcm) }

/-- **One step.** -/
def step (r : ReaderTasks τ) (e : ReceiverEvent τ) : Option (ReaderTasks τ) :=
  match e with
  | .connected => if r.startAt = .connecting then some { r with room := true, startAt := .publishing } else none
  | .published => if r.startAt = .publishing then some { r with sender := .running, startAt := .returned } else none
  | .startRaised =>
    if r.startAt = .connecting ∨ r.startAt = .publishing then some { r with startAt := .raised } else none
  | .trackSubscribed audio track => some (if audio then r.subscribe track else r)
  | .readerBegins i =>
    match r.readers[i]? with
    | some ⟨_, .created, false⟩ => some (r.modifyReader i fun reader => { reader with phase := .reading })
    | _ => none
  | .streamEvent i frames =>
    match r.readers[i]? with
    | some ⟨_, .reading, false⟩ => some (r.feed i frames)
    | _ => none
  | .readerEnds i =>
    if r.readerDone i then none else some (r.modifyReader i fun reader => { reader with phase := .done })
  | .senderEnds => if r.sender = .running then some { r with sender := .done } else none
  | .stopCalled => if r.stopAt = .uncalled then some r.stop else none
  | .stopResumes => r.stopResume

/-- The steps of a run of a new receiver. -/
abbrev trace (es : List (ReceiverEvent τ)) : List (Run.Taken (ReaderTasks τ) (ReceiverEvent τ)) := Run.trace step {} es

abbrev final (es : List (ReceiverEvent τ)) : ReaderTasks τ := Run.final step {} es

abbrev states (es : List (ReceiverEvent τ)) : List (ReaderTasks τ) := Run.states step {} es

/-- The reader's task is not done. -/
def Live (i : ℕ) (r : ReaderTasks τ) : Prop := ∃ reader, r.readers[i]? = some reader ∧ reader.phase ≠ .done

/-- One reader feeds `on_pcm` at a time, the frames of a track come after those of earlier ones, and when `stop` has
returned no reader is left. -/
structure Silent (r : ReaderTasks τ) : Prop where
  one : ∀ i j, r.Live i → r.Live j → i = j
  inOrder : r.calls.Pairwise fun a b => a.1 ≤ b.1
  stopped : r.stopAt = .returned → ∀ i, ¬ r.Live i

end ReaderTasks

/-- An audio track is subscribed. -/
def ReceiverEvent.isSubscription {τ : Type} : ReceiverEvent τ → Bool
  | trackSubscribed audio _ => audio
  | _ => false

/-- `stop` has no reader to wait for any more. -/
def StopPoint.past : StopPoint → Bool
  | uncalled | awaitingReader _ => false
  | awaitingSender | disconnecting | returned => true

namespace ReaderTasks

variable {τ : Type} {r t : ReaderTasks τ} {i j : ℕ}

/-! ## Steps -/

theorem readerDone_iff : r.readerDone i = true ↔ ¬ r.Live i := by
  unfold readerDone Live
  cases h : r.readers[i]? with
  | none => simp
  | some reader => simp

theorem Live.lt_length (h : r.Live i) : i < r.readers.length := by
  obtain ⟨reader, hreader, -⟩ := h
  exact (List.getElem?_eq_some_iff.mp hreader).1

/-- A change that does not bring a reader back to life. -/
theorem live_of_modifyReader {f : Reader τ → Reader τ}
    (hf : ∀ reader, r.readers[i]? = some reader → reader.phase = .done → (f reader).phase = .done)
    (h : (r.modifyReader i f).Live j) : r.Live j := by
  obtain ⟨reader, hreader, hphase⟩ := h
  change (r.readers.modify i f)[j]? = some reader at hreader
  rw [List.getElem?_modify] at hreader
  cases hj : r.readers[j]? with
  | none =>
    rw [hj] at hreader
    exact absurd hreader (by simp)
  | some old =>
    rw [hj, Option.map_eq_map, Option.map_some, Option.some.injEq] at hreader
    refine ⟨old, hj, fun hdone => hphase ?_⟩
    rw [← hreader]
    split
    · rename_i hij
      exact hf old (hij ▸ hj) hdone
    · exact hdone

/-- A step without a subscription: the slot and the number of readers stay, and no reader comes to life. -/
structure Later (r t : ReaderTasks τ) : Prop where
  slot : t.slot = r.slot
  length : t.readers.length = r.readers.length
  live : ∀ i, t.Live i → r.Live i

theorem Later.modifyReader {f : Reader τ → Reader τ}
    (hf : ∀ reader, r.readers[i]? = some reader → reader.phase = .done → (f reader).phase = .done) :
    Later r (r.modifyReader i f) where
  slot := rfl
  length := List.length_modify ..
  live _ h := live_of_modifyReader hf h

/-- The rest of `stop` moves on to a later wait. -/
theorem stopSender_eq (r : ReaderTasks τ) :
    ∃ point : StopPoint, point.past = true ∧ r.stopSender = { r with stopAt := point } := by
  unfold stopSender stopRoom
  split
  · exact ⟨.awaitingSender, rfl, rfl⟩
  · split
    · exact ⟨.disconnecting, rfl, rfl⟩
    · exact ⟨.returned, rfl, rfl⟩

/-- What holds of a run in which no track is subscribed while a reader is unfinished. -/
structure OneReader (r : ReaderTasks τ) : Prop where
  last : ∀ i, r.Live i → r.slot = some i ∧ i + 1 = r.readers.length
  awaited : ∀ i, r.stopAt = .awaitingReader i → r.slot = some i
  past : r.stopAt.past = true → ∀ i, ¬ r.Live i
  called : ∀ call ∈ r.calls, call.1 < r.readers.length
  inOrder : r.calls.Pairwise fun a b => a.1 ≤ b.1

theorem OneReader.silent (h : OneReader r) : Silent r where
  one i j hi hj := by
    have hlasti := (h.last i hi).2
    have hlastj := (h.last j hj).2
    omega
  inOrder := h.inOrder
  stopped hstop := h.past (by rw [hstop]; rfl)

/-- A step that leaves `stop` and the calls where they are. -/
theorem OneReader.later (h : OneReader r) (hlater : Later r t) (hstop : t.stopAt = r.stopAt)
    (hcalls : t.calls = r.calls) : OneReader t where
  last i hi := by
    rw [hlater.slot, hlater.length]
    exact h.last i (hlater.live i hi)
  awaited i hi := by
    rw [hlater.slot]
    exact h.awaited i (hstop ▸ hi)
  past hpast i hi := h.past (hstop ▸ hpast) i (hlater.live i hi)
  called call hcall := by
    rw [hlater.length]
    exact h.called call (hcalls ▸ hcall)
  inOrder := hcalls ▸ h.inOrder

/-- `stop` is past its reader, and none is unfinished. -/
theorem OneReader.beyond (h : OneReader r) (hnone : ∀ i, ¬ r.Live i) (hreaders : t.readers = r.readers)
    (hcalls : t.calls = r.calls) (hpast : t.stopAt.past = true) : OneReader t := by
  have hdead : ∀ i, ¬ t.Live i := fun i hi => by
    unfold Live at hi
    rw [hreaders] at hi
    exact hnone i hi
  refine ⟨fun i hi => (hdead i hi).elim, fun i hi => ?_, fun _ => hdead, ?_, hcalls ▸ h.inOrder⟩
  · rw [hi] at hpast
    exact absurd hpast Bool.false_ne_true
  · rw [hcalls, hreaders]
    exact h.called

theorem OneReader.stopSender (h : OneReader r) (hnone : ∀ i, ¬ r.Live i) : OneReader r.stopSender := by
  obtain ⟨point, hpast, heq⟩ := r.stopSender_eq
  rw [heq]
  exact h.beyond hnone rfl rfl hpast

/-- If the reader in the slot is done, all are. -/
theorem OneReader.none_of_done (h : OneReader r) (hslot : r.slot = some i) (hdone : r.readerDone i = true) :
    ∀ j, ¬ r.Live j := by
  intro j hj
  have hlast := (h.last j hj).1
  rw [hslot] at hlast
  obtain rfl := Option.some.inj hlast
  exact readerDone_iff.mp hdone hj

theorem OneReader.stop (h : OneReader r) : OneReader r.stop := by
  unfold ReaderTasks.stop
  cases hslot : r.slot with
  | none =>
    refine h.stopSender fun i hi => ?_
    have hlast := (h.last i hi).1
    rw [hslot] at hlast
    exact absurd hlast (by simp)
  | some i =>
    dsimp only
    split
    · rename_i hdone
      exact h.stopSender (h.none_of_done hslot hdone)
    · -- The reader is cancelled, and `stop` waits for it.
      have hlater : Later r (r.modifyReader i fun reader => { reader with cancelling := true }) :=
        Later.modifyReader fun _ _ hdone => hdone
      have hsame := h.later hlater rfl rfl
      refine ⟨hsame.last, fun j hj => ?_, fun hpast => ?_, hsame.called, hsame.inOrder⟩
      · obtain rfl := StopPoint.awaitingReader.inj hj
        exact hslot
      · exact absurd hpast Bool.false_ne_true

theorem OneReader.stopResume (h : OneReader r) (hstep : r.stopResume = some t) : OneReader t := by
  unfold ReaderTasks.stopResume at hstep
  cases hstop : r.stopAt with
  | awaitingReader i =>
    rw [hstop] at hstep
    dsimp only at hstep
    split at hstep
    · rename_i hdone
      obtain rfl := Option.some.inj hstep
      exact h.stopSender (h.none_of_done (h.awaited i hstop) hdone)
    · exact absurd hstep (by simp)
  | awaitingSender =>
    rw [hstop] at hstep
    dsimp only at hstep
    have hnone := h.past (by rw [hstop]; rfl)
    split at hstep
    · exact absurd hstep (by simp)
    · obtain rfl := Option.some.inj hstep
      unfold stopRoom
      split
      · exact h.beyond hnone rfl rfl rfl
      · exact h.beyond hnone rfl rfl rfl
  | disconnecting =>
    rw [hstop] at hstep
    obtain rfl := Option.some.inj hstep
    have hnone := h.past (by rw [hstop]; rfl)
    exact h.beyond hnone rfl rfl rfl
  | uncalled =>
    rw [hstop] at hstep
    exact absurd hstep (by simp)
  | returned =>
    rw [hstop] at hstep
    exact absurd hstep (by simp)

/-- The frames of the last reader come after all others. -/
theorem OneReader.feed (h : OneReader r) (hlive : r.Live i) (frames : List Pcm) : OneReader (r.feed i frames) where
  last := h.last
  awaited := h.awaited
  past := h.past
  called call hcall := by
    rcases List.mem_append.mp hcall with hold | hnew
    · exact h.called call hold
    · obtain ⟨pcm, -, rfl⟩ := List.mem_map.mp hnew
      exact hlive.lt_length
  inOrder := by
    refine List.pairwise_append.mpr ⟨h.inOrder, ?_, fun a ha b hb => ?_⟩
    · exact List.pairwise_map.mpr (List.pairwise_of_forall fun _ _ => Nat.le_refl i)
    · obtain ⟨pcm, -, rfl⟩ := List.mem_map.mp hb
      have hlen := h.called a ha
      have hlast := (h.last i hlive).2
      omega

/-- A track is subscribed when no reader is unfinished: its reader is the only one. -/
theorem OneReader.subscribe (h : OneReader r) (hstop : r.stopAt = .uncalled) (hnone : ∀ i, ¬ r.Live i) (track : τ) :
    OneReader (r.subscribe track) := by
  have hlength : (r.subscribe track).readers.length = r.readers.length + 1 := by
    simp [ReaderTasks.subscribe]
  refine ⟨fun i hi => ?_, fun i hi => ?_, fun hpast => ?_, fun call hcall => ?_, h.inOrder⟩
  · have hi' : i = r.readers.length := by
      by_contra hne
      obtain ⟨reader, hreader, hphase⟩ := hi
      have hlt : i < r.readers.length := by
        have hlen := (List.getElem?_eq_some_iff.mp hreader).1
        rw [hlength] at hlen
        omega
      refine hnone i ⟨reader, ?_, hphase⟩
      rwa [ReaderTasks.subscribe, List.getElem?_append_left hlt] at hreader
    subst hi'
    exact ⟨rfl, hlength.symm⟩
  · change r.stopAt = _ at hi
    rw [hstop] at hi
    exact absurd hi (by simp)
  · change r.stopAt.past = true at hpast
    rw [hstop] at hpast
    exact absurd hpast Bool.false_ne_true
  · rw [hlength]
    exact Nat.lt_succ_of_lt (h.called call hcall)

/-- **Step.** Every step keeps the invariant, if a track is subscribed only before `stop` and while no reader is
unfinished. -/
theorem OneReader.step (h : OneReader r) {e : ReceiverEvent τ} (hstep : r.step e = some t)
    (hsub : e.isSubscription = true → r.stopAt = .uncalled ∧ ∀ i, ¬ r.Live i) : OneReader t := by
  cases e with
  | connected =>
    obtain rfl := Option.some.inj (Option.ite_none_right_eq_some.mp hstep).2
    exact h.later ⟨rfl, rfl, fun _ hi => hi⟩ rfl rfl
  | published =>
    obtain rfl := Option.some.inj (Option.ite_none_right_eq_some.mp hstep).2
    exact h.later ⟨rfl, rfl, fun _ hi => hi⟩ rfl rfl
  | startRaised =>
    obtain rfl := Option.some.inj (Option.ite_none_right_eq_some.mp hstep).2
    exact h.later ⟨rfl, rfl, fun _ hi => hi⟩ rfl rfl
  | trackSubscribed audio track =>
    obtain rfl := Option.some.inj hstep
    cases audio with
    | false => exact h
    | true => exact h.subscribe (hsub rfl).1 (hsub rfl).2 track
  | readerBegins i =>
    unfold ReaderTasks.step at hstep
    dsimp only at hstep
    split at hstep
    · rename_i hcreated
      obtain rfl := Option.some.inj hstep
      refine h.later (Later.modifyReader fun reader hreader hdone => ?_) rfl rfl
      rw [hcreated] at hreader
      obtain rfl := Option.some.inj hreader
      exact absurd hdone (by simp)
    · exact absurd hstep (by simp)
  | streamEvent i frames =>
    unfold ReaderTasks.step at hstep
    dsimp only at hstep
    split at hstep
    · rename_i hreader
      obtain rfl := Option.some.inj hstep
      exact h.feed ⟨_, hreader, by simp⟩ frames
    · exact absurd hstep (by simp)
  | readerEnds i =>
    obtain rfl := Option.some.inj (Option.ite_none_left_eq_some.mp hstep).2
    exact h.later (Later.modifyReader fun _ _ _ => rfl) rfl rfl
  | senderEnds =>
    obtain rfl := Option.some.inj (Option.ite_none_right_eq_some.mp hstep).2
    exact h.later ⟨rfl, rfl, fun _ hi => hi⟩ rfl rfl
  | stopCalled =>
    obtain rfl := Option.some.inj (Option.ite_none_right_eq_some.mp hstep).2
    exact h.stop
  | stopResumes => exact h.stopResume hstep

/-! ## Every run -/

theorem OneReader.init : OneReader ({} : ReaderTasks τ) where
  last _ hi := absurd hi.lt_length (Nat.not_lt_zero _)
  awaited _ hi := StopPoint.noConfusion hi
  past hpast := absurd hpast Bool.false_ne_true
  called _ hcall := absurd hcall List.not_mem_nil
  inOrder := List.Pairwise.nil

theorem oneReader_of_run {es : List (ReceiverEvent τ)}
    (hsub : ∀ x ∈ trace es, x.event.isSubscription = true → x.before.stopAt = .uncalled ∧ ∀ i, ¬ x.before.Live i) :
    ∀ s ∈ states es, OneReader s :=
  Run.forall_states OneReader.init fun x hx h => h.step (Run.mem_trace hx).2 (hsub x hx)

/-- The reader of a new track is unfinished, and so are those before it. -/
theorem live_subscribe (track : τ) (r : ReaderTasks τ) :
    (r.subscribe track).Live r.readers.length ∧ ∀ i, r.Live i → (r.subscribe track).Live i := by
  refine ⟨⟨_, List.getElem?_concat_length, by simp⟩, fun i hi => ?_⟩
  obtain ⟨reader, hreader, hphase⟩ := hi
  refine ⟨reader, ?_, hphase⟩
  rw [ReaderTasks.subscribe, List.getElem?_append_left (List.getElem?_eq_some_iff.mp hreader).1, hreader]

/-- A track subscribed while a reader is unfinished makes a second one that feeds. -/
theorem not_silent_of_subscription {e : ReceiverEvent τ} (hstep : r.step e = some t) (hsub : e.isSubscription = true)
    (hlive : r.Live i) : ¬ Silent t := by
  cases e with
  | trackSubscribed audio track =>
    obtain rfl : audio = true := hsub
    obtain rfl := Option.some.inj hstep
    obtain ⟨hnew, hold⟩ := live_subscribe track r
    intro hsilent
    have hsame := hsilent.one i r.readers.length (hold i hlive) hnew
    exact absurd hlive.lt_length (by omega)
  | _ => exact absurd hsub Bool.false_ne_true

/-- **Stopped means silent, exactly if every audio track is subscribed while no reader is unfinished**, for every run
whose tracks are subscribed before `stop`. -/
theorem stopped_silent_iff (es : List (ReceiverEvent τ))
    (hbefore : ∀ x ∈ trace es, x.event.isSubscription = true → x.before.stopAt = .uncalled) :
    (∀ s ∈ states es, Silent s) ↔
      ∀ x ∈ trace es, x.event.isSubscription = true → ∀ i, ¬ x.before.Live i := by
  constructor
  · intro hsilent x hx hsub i hlive
    refine not_silent_of_subscription (Run.mem_trace hx).2 hsub hlive (hsilent x.after ?_)
    exact List.mem_cons_of_mem _ (List.mem_map_of_mem hx)
  · intro hsub s hs
    exact (oneReader_of_run (fun x hx hx' => ⟨hbefore x hx hx', hsub x hx hx'⟩) s hs).silent

/-- One track, whose reader is cancelled by `stop`. -/
def oneTrack : List (ReceiverEvent ℕ) :=
  [.connected, .published, .trackSubscribed true 7, .readerBegins 0, .streamEvent 0 [[1, 0]], .stopCalled,
    .readerEnds 0, .stopResumes, .senderEnds, .stopResumes, .stopResumes]

theorem stopped_silent_iff_oneTrack :
    (final oneTrack).stopAt = .returned ∧ ∀ s ∈ states oneTrack, Silent s := by
  have hfirst : ∀ x ∈ trace oneTrack, x.event.isSubscription = true → x.before.readers.length = 0 := by decide
  refine ⟨by decide, (stopped_silent_iff oneTrack (by decide)).mpr fun x hx hsub i hlive => ?_⟩
  exact absurd hlive.lt_length (by rw [hfirst x hx hsub]; exact Nat.not_lt_zero i)

/-- A browser publishes its microphone twice. -/
def twoTracks : List (ReceiverEvent ℕ) :=
  [.connected, .published, .trackSubscribed true 7, .readerBegins 0, .streamEvent 0 [[1, 0]],
    .trackSubscribed true 8, .readerBegins 1, .streamEvent 1 [[2, 0]], .streamEvent 0 [[3, 0]], .stopCalled,
    .readerEnds 1, .stopResumes, .senderEnds, .stopResumes, .stopResumes, .streamEvent 0 [[4, 0]]]

/-- The frames of the two tracks are interleaved, and the first reader feeds on after `stop`. -/
theorem two_tracks_not_silent :
    (∀ x ∈ trace twoTracks, x.event.isSubscription = true → x.before.stopAt = .uncalled) ∧
      (final twoTracks).stopAt = .returned ∧
      (final twoTracks).calls.map Prod.fst = [0, 1, 0, 0] ∧ ¬ Silent (final twoTracks) := by
  refine ⟨by decide, by decide, by decide, fun h => ?_⟩
  exact h.stopped (by decide) 0 ⟨⟨7, .reading, false⟩, rfl, by decide⟩

end ReaderTasks

end SenseVoice.Bridge
