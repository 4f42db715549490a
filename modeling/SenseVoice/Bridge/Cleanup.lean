import SenseVoice.Bridge.App
import SenseVoice.Lib.Run

/-!
# The end of a connection (`stop_session`, `stop_all_sessions` and `run`)

`run` connects, serves messages until the connection ends, and stops every session in a `finally`
block, which the handlers of its `try` do not guard. Here `session.stop()` may raise, as
`RealSession.stop` does when it awaits a worker that an exception has ended: `stop_session` lets the
exception pass, and so do the loop of `stop_all_sessions` and `run`.

* A round of the loop takes what the connection leaves: the keys of `self.sessions`, how the connection
  ended, what each `stop()` raises, and whether `stopping` is set when it is tested.
* `Reconnect` is the loop at its head, with its `backoff`; the random part of the sleep is left out.
* `BridgeApp.stop`, which may stop sessions beside the loop once it has set `stopping`, is in `ServiceLoop`.

Results:
* `stopEach_spec`: which sessions the loop stops;
* `stopAllSessions_refines`: without an exception it is the `stop_all_sessions` of the application;
* **`cleanup_safe_iff`**: in every run, exactly the rounds whose sessions stop without an exception are
  cleaned up and followed by a reconnection.
-/

namespace SenseVoice.Bridge

open Lib

variable {ε : Type}

/-- The table during a cleanup, and the sessions whose `stop()` was called, in order. -/
structure Cleanup where
  sessions : List String
  stopped : List String
deriving DecidableEq

/-- `stop_session` without the notice, and the exception it raises; `stopError` is what `stop()` raises. -/
def Cleanup.stopSession (stopError : String → Option ε) (id : String) (c : Cleanup) :
    Cleanup × Option ε :=
  if id ∈ c.sessions then
    (⟨c.sessions.filter (· ≠ id), c.stopped ++ [id]⟩, stopError id)
  else (c, none)

/-- The loop of `stop_all_sessions`. -/
def Cleanup.stopEach (stopError : String → Option ε) : List String → Cleanup → Cleanup × Option ε
  | [], c => (c, none)
  | id :: ids, c =>
    match c.stopSession stopError id with
    | (c, some raised) => (c, some raised)
    | (c, none) => c.stopEach stopError ids

/-- `stop_all_sessions`, on the table with these keys. -/
def stopAllSessions (stopError : String → Option ε) (sessions : List String) : Cleanup × Option ε :=
  Cleanup.stopEach stopError sessions ⟨sessions, []⟩

/-- How the `try` block of `run` ends. -/
inductive Ending where
  /-- The connection is lost or cannot be made: an exception that is logged. -/
  | lost
  /-- The control plane has closed the connection. -/
  | closed
  /-- `asyncio.CancelledError`. -/
  | cancelled
deriving DecidableEq

/-- What one round of `run` meets. -/
structure Round (ε : Type) where
  sessions : List String
  nodup : sessions.Nodup
  connected : Bool
  ending : Ending
  stopError : String → Option ε
  stopping : Bool

namespace Round

/-- The `finally` block. -/
def cleanup (r : Round ε) : Cleanup × Option ε := stopAllSessions r.stopError r.sessions

/-- `backoff` when the cleanup begins. -/
def backoff (r : Round ε) (before : ℕ) : ℕ := if r.connected then 1 else before

end Round

/-- Where the loop of `run` is: at its head, returned, or left by an exception. -/
inductive Reconnect (ε : Type) where
  | connecting (backoff : ℕ)
  | returned
  | raised (e : ε)

/-- One round of `run`. The next round begins after a sleep of `backoff` seconds. -/
def Reconnect.step (s : Reconnect ε) (r : Round ε) : Option (Reconnect ε) :=
  match s with
  | .connecting backoff =>
    match r.cleanup.2 with
    | some e => some (.raised e)
    | none =>
      if r.ending = .cancelled ∨ r.stopping then some .returned
      else some (.connecting (min (r.backoff backoff * 2) 20))
  | _ => none

/-- The rounds that a run takes. -/
def rounds (rs : List (Round ε)) : List (Run.Taken (Reconnect ε) (Round ε)) :=
  Run.trace Reconnect.step (.connecting 1) rs

/-! ## Which sessions are stopped -/

/-- The first session of the table leaves it. -/
theorem stopSession_head (stopError : String → Option ε) {id : String} {ids : List String}
    (hnodup : (id :: ids).Nodup) (stopped : List String) :
    (⟨id :: ids, stopped⟩ : Cleanup).stopSession stopError id = (⟨ids, stopped ++ [id]⟩, stopError id) := by
  have hfilter : (id :: ids).filter (· ≠ id) = ids := by
    rw [List.filter_cons_of_neg (by simp)]
    refine List.filter_eq_self.mpr fun k hk => ?_
    rw [decide_eq_true_eq]
    rintro rfl
    exact (List.nodup_cons.mp hnodup).1 hk
  rw [Cleanup.stopSession, if_pos List.mem_cons_self, hfilter]

/-- The loop over the whole table: it stops a prefix, keeps the rest, and goes on to the end exactly if
no session before the last one raises. -/
theorem stopEach_spec (stopError : String → Option ε) {ids : List String} (hnodup : ids.Nodup)
    (stopped : List String) :
    let c := Cleanup.stopEach stopError ids ⟨ids, stopped⟩
    (∃ done, ids = done ++ c.1.sessions ∧ c.1.stopped = stopped ++ done) ∧
      (c.1.sessions = [] ↔ ∀ id ∈ ids.dropLast, stopError id = none) ∧
      (c.2 = none ↔ ∀ id ∈ ids, stopError id = none) := by
  induction ids generalizing stopped with
  | nil => exact ⟨⟨[], rfl, by simp [Cleanup.stopEach]⟩, by simp [Cleanup.stopEach],
      by simp [Cleanup.stopEach]⟩
  | cons id ids ih =>
    have hrest := (List.nodup_cons.mp hnodup).2
    have hstop := stopSession_head stopError hnodup stopped
    intro c
    cases herr : stopError id with
    | some e =>
      have hc : c = (⟨ids, stopped ++ [id]⟩, some e) := by
        simp only [c, Cleanup.stopEach, hstop, herr]
      refine ⟨⟨[id], by rw [hc, List.singleton_append], by rw [hc]⟩, ?_, ?_⟩
      · rw [hc]
        cases ids with
        | nil => simp
        | cons k ids => simp [herr]
      · rw [hc]
        simp [herr]
    | none =>
      have hc : c = Cleanup.stopEach stopError ids ⟨ids, stopped ++ [id]⟩ := by
        simp only [c, Cleanup.stopEach, hstop, herr]
      obtain ⟨⟨done, hsplit, hdone⟩, hall, hnone⟩ := ih hrest (stopped ++ [id])
      rw [hc]
      refine ⟨⟨id :: done, ?_, ?_⟩, ?_, ?_⟩
      · rw [List.cons_append, ← hsplit]
      · rw [hdone, List.append_assoc, List.singleton_append]
      · rw [hall]
        cases ids with
        | nil => simp
        | cons k ids => simp [herr]
      · rw [hnone]
        simp [herr]

/-- Without an exception the cleanup leaves the application as `stop_all_sessions` does. -/
theorem stopAllSessions_refines {stopError : String → Option ε} {app : BridgeApp}
    (hnodup : app.sessions.Nodup) (h : ∀ id ∈ app.sessions, stopError id = none) :
    (stopAllSessions stopError app.sessions).1.sessions = app.stopAllSessions.sessions :=
  (stopEach_spec stopError hnodup []).2.1.mpr fun id hid => h id (List.dropLast_subset _ hid)

/-! ## Runs -/

/-- The round stops every session, leaves the table empty, and is followed by another one unless the
loop is to end. -/
structure RoundSafe (x : Run.Taken (Reconnect ε) (Round ε)) : Prop where
  stopped : ∀ id ∈ x.event.sessions, id ∈ x.event.cleanup.1.stopped
  empty : x.event.cleanup.1.sessions = []
  reconnects : x.event.ending ≠ .cancelled → x.event.stopping = false →
    ∃ backoff, x.after = .connecting backoff

/-- No `stop()` raises, except the last one when the loop is to end anyway. -/
structure Round.StopsCleanly (r : Round ε) : Prop where
  before_last : ∀ id ∈ r.sessions.dropLast, r.stopError id = none
  all : r.ending ≠ .cancelled → r.stopping = false → ∀ id ∈ r.sessions, r.stopError id = none

/-- What a round does to the loop. -/
theorem step_connecting {s t : Reconnect ε} {r : Round ε} (h : s.step r = some t) :
    (∃ e, r.cleanup.2 = some e ∧ t = .raised e) ∨
      r.cleanup.2 = none ∧ (r.ending = .cancelled ∨ r.stopping = true) ∧ t = .returned ∨
      r.cleanup.2 = none ∧ r.ending ≠ .cancelled ∧ r.stopping = false ∧
        ∃ backoff, t = .connecting backoff := by
  cases s with
  | connecting backoff =>
    simp only [Reconnect.step] at h
    split at h
    · rename_i e he
      exact Or.inl ⟨e, he, (Option.some.inj h).symm⟩
    · rename_i hnone
      split at h
      · exact Or.inr (Or.inl ⟨hnone, ‹_›, (Option.some.inj h).symm⟩)
      · rename_i hgo
        rw [not_or, Bool.not_eq_true] at hgo
        exact Or.inr (Or.inr ⟨hnone, hgo.1, hgo.2, _, (Option.some.inj h).symm⟩)
  | returned => exact absurd h (by simp [Reconnect.step])
  | raised e => exact absurd h (by simp [Reconnect.step])

/-- A round is safe exactly if its sessions stop cleanly. -/
theorem roundSafe_iff {x : Run.Taken (Reconnect ε) (Round ε)}
    (h : x.before.step x.event = some x.after) : RoundSafe x ↔ x.event.StopsCleanly := by
  obtain ⟨⟨done, hsplit, hdone⟩, hempty, hnone⟩ :=
    stopEach_spec x.event.stopError x.event.nodup []
  change x.event.sessions = done ++ x.event.cleanup.1.sessions at hsplit
  change x.event.cleanup.1.stopped = [] ++ done at hdone
  change x.event.cleanup.1.sessions = [] ↔ _ at hempty
  change x.event.cleanup.2 = none ↔ _ at hnone
  constructor
  · intro hsafe
    refine ⟨hempty.mp hsafe.empty, fun hending hstopping => hnone.mp ?_⟩
    obtain ⟨backoff, hafter⟩ := hsafe.reconnects hending hstopping
    rcases step_connecting h with ⟨e, -, ht⟩ | ⟨-, -, ht⟩ | ⟨hcleanup, -⟩
    · exact absurd (hafter.symm.trans ht) (by simp)
    · exact absurd (hafter.symm.trans ht) (by simp)
    · exact hcleanup
  · intro hclean
    have hzero := hempty.mpr hclean.before_last
    refine ⟨fun id hid => ?_, hzero, fun hending hstopping => ?_⟩
    · rw [hzero, List.append_nil] at hsplit
      rwa [hdone, List.nil_append, ← hsplit]
    · have hquiet := hnone.mpr (hclean.all hending hstopping)
      rcases step_connecting h with ⟨e, he, -⟩ | ⟨-, hend, -⟩ | ⟨-, -, -, hgo⟩
      · exact absurd (hquiet.symm.trans he) (by simp)
      · rcases hend with hend | hend
        · exact absurd hend hending
        · exact absurd (hstopping.symm.trans hend) (by simp)
      · exact hgo

/-- **Exception-safe cleanup.** In every run, all rounds stop every session, leave the table empty and
are followed by a reconnection (unless the loop is to end), exactly if in all of them the sessions stop
without an exception. -/
theorem cleanup_safe_iff (rs : List (Round ε)) :
    (∀ x ∈ rounds rs, RoundSafe x) ↔ ∀ x ∈ rounds rs, x.event.StopsCleanly :=
  forall₂_congr fun _ hx => roundSafe_iff (Run.mem_trace hx).2

/-- The connection is lost, and the worker of the first of two sessions has ended with an exception. -/
def lostRound : Round String where
  sessions := ["first", "second"]
  nodup := by decide
  connected := true
  ending := .lost
  stopError id := if id = "first" then some "ConnectionClosedError" else none
  stopping := false

/-- The second session is not stopped and stays in the table, and the loop is left. -/
theorem lostRound_unsafe : ¬ ∀ x ∈ rounds [lostRound], RoundSafe x := by
  intro h
  have hx := h ⟨.connecting 1, lostRound, .raised "ConnectionClosedError"⟩ List.mem_cons_self
  have hleft : (lostRound.cleanup).1.sessions = ["second"] := by decide
  exact absurd (hleft.symm.trans hx.empty) (by simp)

end SenseVoice.Bridge
