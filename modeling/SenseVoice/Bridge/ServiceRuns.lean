import Mathlib.Data.List.Perm.Basic
import Mathlib.Tactic.NormNum
import SenseVoice.Bridge.ServiceLoop

/-!
# Runs of the service loop

What holds of `run`, its handlers and the calls of `stop` in every order of their steps.

* `Pops`: sessions leave the table, each with a call of its `stop()`. That is all that
  `stop_all_sessions` does, in `run` as in a call of `stop`, so they need no order between them.
* `Accounted`: every session is in the table or has been stopped, and no session twice.
* `Coherent`: the invariant, with what is known at each place of `run` and of a call of `stop`.

Results:
* **`sessions_stopped_once`**: no session is lost or stopped twice;
* **`stop_ends_service`**: what a call of `stop` brings about, and when it does not;
* **`reconnects`**: how long `run` waits between its attempts, and that a call of `stop` ends them.
-/

namespace SenseVoice.Bridge.Loop

open Lib

namespace Service

variable {κ : Type} [DecidableEq κ] {s t u : Service κ} {id : κ}

/-! ## Sessions leave the table -/

/-- Some sessions leave the table. -/
inductive Pops : Service κ → Service κ → Prop
  | refl (s : Service κ) : Pops s s
  | pop {s t u : Service κ} {id : κ} (h : s.pop id = some t) (hrest : Pops t u) : Pops s u

theorem pop_eq_some (h : s.pop id = some t) : ∃ object, s.sessions.lookup id = some object ∧
    t = { s with sessions := s.sessions.erase id, stopped := s.stopped ++ [object] } := by
  obtain ⟨object, hlookup, rfl⟩ := Option.map_eq_some_iff.mp h
  exact ⟨object, hlookup, rfl⟩

theorem pop_eq_none : s.pop id = none ↔ id ∉ s.sessions := by
  rw [pop, Option.map_eq_none_iff, AList.lookup_eq_none]

/-- Nothing else changes. -/
theorem Pops.frame (h : Pops s t) : t = { s with sessions := t.sessions, stopped := t.stopped } := by
  induction h with
  | refl s => rfl
  | pop h _ ih =>
    obtain ⟨object, -, rfl⟩ := pop_eq_some h
    exact ih

/-- No session enters. -/
theorem Pops.shrinks (h : Pops s t) {k : κ} (hk : k ∈ t.sessions) : k ∈ s.sessions := by
  induction h with
  | refl s => exact hk
  | pop h _ ih =>
    obtain ⟨object, -, rfl⟩ := pop_eq_some h
    exact (AList.mem_erase.mp (ih hk)).2

theorem Pops.empty (h : Pops s t) (hs : s.sessions = ∅) : t.sessions = ∅ := by
  induction h with
  | refl s => exact hs
  | pop h _ ih =>
    obtain ⟨object, hlookup, rfl⟩ := pop_eq_some h
    rw [hs] at hlookup
    cases hlookup

/-- What the loop of `stop_all_sessions` leaves. -/
theorem sweep_pops (todo : List κ) (s : Service κ) : Pops s (s.sweep todo).1 := by
  induction todo generalizing s with
  | nil => exact .refl s
  | cons id todo ih =>
    rw [sweep]
    cases hpop : s.pop id with
    | some t => exact .pop hpop (.refl t)
    | none => exact ih s

/-- The sessions that are left are among those it still goes to. -/
theorem sweep_covers {todo : List κ} (h : ∀ k ∈ s.sessions, k ∈ todo) :
    (∀ rest, (s.sweep todo).2 = some rest → ∀ k ∈ (s.sweep todo).1.sessions, k ∈ rest) ∧
      ((s.sweep todo).2 = none → (s.sweep todo).1.sessions = ∅) := by
  induction todo with
  | nil =>
    refine ⟨fun rest hrest => absurd hrest (Option.some_ne_none rest).symm, fun _ => ?_⟩
    have hentries : s.sessions.entries = [] := List.eq_nil_iff_forall_not_mem.mpr fun e he =>
      absurd (h e.1 (AList.mem_keys.mp (List.mem_map_of_mem he))) List.not_mem_nil
    exact AList.ext hentries
  | cons id todo ih =>
    rw [sweep]
    cases hpop : s.pop id with
    | some t =>
      obtain ⟨object, -, rfl⟩ := pop_eq_some hpop
      refine ⟨fun rest hrest k hk => ?_, fun hnone => by cases hnone⟩
      obtain rfl := Option.some.inj hrest
      obtain ⟨hne, hk⟩ := AList.mem_erase.mp hk
      exact (List.mem_cons.mp (h k hk)).resolve_left hne
    | none =>
      have hid : id ∉ s.sessions := pop_eq_none.mp hpop
      exact ih fun k hk => (List.mem_cons.mp (h k hk)).resolve_left fun heq => hid (heq ▸ hk)

/-! ## No session is lost -/

/-- Every session is in the table or has been stopped, and no session twice. -/
structure Accounted (s : Service κ) : Prop where
  nodup : s.stopped.Nodup
  known : ∀ o ∈ s.stopped, o < s.entered
  held : ∀ k o, s.sessions.lookup k = some o → o < s.entered ∧ o ∉ s.stopped
  single : ∀ k k' o, s.sessions.lookup k = some o → s.sessions.lookup k' = some o → k = k'
  all : ∀ o < s.entered, o ∈ s.stopped ∨ ∃ k, s.sessions.lookup k = some o

theorem Accounted.pop (hs : s.Accounted) (h : s.pop id = some t) : t.Accounted := by
  obtain ⟨object, hlookup, rfl⟩ := pop_eq_some h
  obtain ⟨hlt, hnot⟩ := hs.held id object hlookup
  have herase : ∀ {k o}, (s.sessions.erase id).lookup k = some o → k ≠ id ∧ s.sessions.lookup k = some o := by
    intro k o hk
    rw [Table.lookup_erase_eq] at hk
    by_cases hid : k = id
    · rw [if_pos hid] at hk
      cases hk
    · rw [if_neg hid] at hk
      exact ⟨hid, hk⟩
  refine ⟨?_, ?_, ?_, ?_, ?_⟩
  · exact List.nodup_append.mpr ⟨hs.nodup, List.nodup_singleton _, fun a ha b hb => by
      rintro rfl
      exact hnot (List.mem_singleton.mp hb ▸ ha)⟩
  · intro o ho
    rcases List.mem_append.mp ho with ho | ho
    · exact hs.known o ho
    · exact List.mem_singleton.mp ho ▸ hlt
  · intro k o hk
    obtain ⟨hne, hk⟩ := herase hk
    refine ⟨(hs.held k o hk).1, fun ho => ?_⟩
    rcases List.mem_append.mp ho with ho | ho
    · exact (hs.held k o hk).2 ho
    · exact hne (hs.single k id object (List.mem_singleton.mp ho ▸ hk) hlookup)
  · intro k k' o hk hk'
    exact hs.single k k' o (herase hk).2 (herase hk').2
  · intro o ho
    rcases hs.all o ho with hmem | ⟨k, hk⟩
    · exact Or.inl (List.mem_append_left _ hmem)
    · by_cases hid : k = id
      · rw [hid, hlookup] at hk
        exact Or.inl (List.mem_append_right _ (List.mem_singleton.mpr (Option.some.inj hk).symm))
      · exact Or.inr ⟨k, by rw [Table.lookup_erase_eq, if_neg hid, hk]⟩

theorem Accounted.pops (hs : s.Accounted) (h : Pops s t) : t.Accounted := by
  induction h with
  | refl s => exact hs
  | pop h _ ih => exact ih (hs.pop h)

/-- A new session enters under a free key. -/
theorem Accounted.enter (hs : s.Accounted) (hid : id ∉ s.sessions) : (s.enter id).Accounted := by
  have hnone : s.sessions.lookup id = none := AList.lookup_eq_none.mpr hid
  refine ⟨hs.nodup, fun o ho => Nat.lt_succ_of_lt (hs.known o ho), ?_, ?_, ?_⟩
  · intro k o hk
    rcases Table.lookup_insert_cases hk with ⟨-, rfl⟩ | ⟨-, hk⟩
    · exact ⟨Nat.lt_succ_self _, fun ho => absurd (hs.known _ ho) (Nat.lt_irrefl _)⟩
    · exact ⟨Nat.lt_succ_of_lt (hs.held k o hk).1, (hs.held k o hk).2⟩
  · intro k k' o hk hk'
    rcases Table.lookup_insert_cases hk with ⟨hid, ho⟩ | ⟨-, hold⟩
    · rcases Table.lookup_insert_cases hk' with ⟨hid', -⟩ | ⟨-, hold'⟩
      · rw [hid, hid']
      · exact absurd (ho ▸ (hs.held k' o hold').1) (Nat.lt_irrefl _)
    · rcases Table.lookup_insert_cases hk' with ⟨-, ho'⟩ | ⟨-, hold'⟩
      · exact absurd (ho' ▸ (hs.held k o hold).1) (Nat.lt_irrefl _)
      · exact hs.single k k' o hold hold'
  · intro o ho
    rcases Nat.lt_succ_iff_lt_or_eq.mp ho with ho | rfl
    · rcases hs.all o ho with hmem | ⟨k, hk⟩
      · exact Or.inl hmem
      · refine Or.inr ⟨k, ?_⟩
        have hne : k ≠ id := fun heq => by
          rw [heq, hnone] at hk
          cases hk
        exact (AList.lookup_insert_ne hne).trans hk
    · exact Or.inr ⟨id, AList.lookup_insert s.sessions⟩

/-- With an empty table all sessions have been stopped. -/
theorem Accounted.all_stopped (hs : s.Accounted) (h : s.sessions = ∅) : s.stopped.Perm (List.range s.entered) := by
  refine (List.perm_ext_iff_of_nodup hs.nodup List.nodup_range).mpr fun o => ?_
  rw [List.mem_range]
  refine ⟨hs.known o, fun ho => (hs.all o ho).resolve_right ?_⟩
  rintro ⟨k, hk⟩
  rw [h] at hk
  cases hk

/-! ## What a step does -/

/-- What a handler does: it waits somewhere, after it has taken a session out of the table or put a new one
into it, or neither. -/
inductive Handles (s : Service κ) : Service κ → Prop
  | waits (handler : HandlerAt κ) (h : ∀ id, handler ≠ .replacing id) : Handles s (s.handlerAt handler)
  | popped {t : Service κ} {id : κ} (hpop : s.pop id = some t) (handler : HandlerAt κ)
      (h : ∀ k, handler = .replacing k → k = id) : Handles s (t.handlerAt handler)
  | entered {id : κ} (hid : id ∉ s.sessions) : Handles s ((s.enter id).handlerAt (.starting id))

theorem popLast_handles (id : κ) (s : Service κ) : Handles s (s.popLast id) := by
  unfold popLast
  cases hpop : s.pop id with
  | some t => exact .popped hpop .finishing fun _ h => by cases h
  | none => exact .waits .idle fun _ h => by cases h

theorem startNew_handles (maxSessions : ℤ) (constructs : Bool) (hid : id ∉ s.sessions) :
    Handles s (s.startNew maxSessions id constructs) := by
  unfold startNew
  by_cases hfull : maxSessions ≤ s.sessions.entries.length
  · rw [if_pos hfull]
    exact .waits .finishing fun _ h => by cases h
  · rw [if_neg hfull]
    cases constructs with
    | true => exact .entered hid
    | false => exact .waits .idle fun _ h => by cases h

theorem handle_handles (maxSessions : ℤ) (m : Message κ) (hrun : s.run = .serving .idle) :
    Handles s (s.handle maxSessions m) := by
  have hsame : Handles s s := by
    have hidle : Handles s (s.handlerAt .idle) := .waits .idle fun _ h => by cases h
    have heq : s.handlerAt .idle = s := by
      rw [handlerAt, ← hrun]
    rwa [heq] at hidle
  cases m with
  | start id constructs =>
    rw [handle]
    cases hpop : s.pop id with
    | some t => exact .popped hpop (.replacing id) fun _ h => (HandlerAt.replacing.inj h).symm
    | none => exact startNew_handles maxSessions constructs (pop_eq_none.mp hpop)
  | stop id => exact popLast_handles id s
  | serve id =>
    rw [handle]
    by_cases hid : id ∈ s.sessions
    · rw [if_pos hid]
      exact .waits .finishing fun _ h => by cases h
    · rw [if_neg hid]
      exact hsame
  | other => exact hsame

theorem resume_handles {maxSessions : ℤ} {raised constructs : Bool} {handler : HandlerAt κ}
    (hfree : ∀ id, handler = .replacing id → id ∉ s.sessions)
    (h : s.resume maxSessions raised constructs handler = some t) : Handles s t := by
  have hwaits : ∀ handler : HandlerAt κ, (∀ id, handler ≠ .replacing id) → Handles s (s.handlerAt handler) :=
    fun handler h => .waits handler h
  cases handler with
  | idle => cases h
  | replacing id =>
    obtain rfl := Option.some.inj h
    cases raised with
    | true => exact hwaits .idle fun _ h => by cases h
    | false => exact startNew_handles maxSessions constructs (hfree id rfl)
  | starting id =>
    obtain rfl := Option.some.inj h
    cases raised with
    | true => exact hwaits (.failing id) fun _ h => by cases h
    | false => exact hwaits (.readying id) fun _ h => by cases h
  | readying id =>
    obtain rfl := Option.some.inj h
    cases raised with
    | true => exact hwaits (.failing id) fun _ h => by cases h
    | false => exact hwaits .idle fun _ h => by cases h
  | failing id =>
    obtain rfl := Option.some.inj h
    cases raised with
    | true => exact hwaits .idle fun _ h => by cases h
    | false => exact popLast_handles id s
  | finishing =>
    obtain rfl := Option.some.inj h
    exact hwaits .idle fun _ h => by cases h

/-- What `stop_all_sessions` in the `finally` block does. -/
inductive SweptOn (cancelled : Bool) (s : Service κ) : Service κ → Prop
  | waits {t : Service κ} {rest : List κ} (hpops : Pops s t) (h : ∀ k ∈ t.sessions, k ∈ rest) :
      SweptOn cancelled s { t with run := .sweeping cancelled rest }
  | done {t : Service κ} (hpops : Pops s t) (h : t.sessions = ∅) : SweptOn cancelled s (t.afterFinally cancelled)

theorem sweepOn_cases (cancelled : Bool) {todo : List κ} (h : ∀ k ∈ s.sessions, k ∈ todo) :
    SweptOn cancelled s (s.sweepOn cancelled todo) := by
  have hpops := sweep_pops todo s
  obtain ⟨hsome, hnone⟩ := sweep_covers h
  unfold sweepOn
  generalize s.sweep todo = r at hpops hsome hnone ⊢
  obtain ⟨t, rest⟩ := r
  cases rest with
  | some rest => exact .waits hpops (hsome rest rfl)
  | none => exact .done hpops (hnone rfl)

theorem finalize_cases (cancelled : Bool) (s : Service κ) :
    SweptOn cancelled { s with websocket := none } (s.finalize cancelled) :=
  sweepOn_cases cancelled (s := { s with websocket := none }) s.mem_keys

/-- **What a step does.** -/
inductive Stepped (maxSessions : ℤ) (s : Service κ) : Service κ → Prop
  | began (hrun : s.run = .head) : Stepped maxSessions s s.loopHead
  | awoke (hrun : s.run = .sleeping) :
      Stepped maxSessions s { s with backoff := min (s.backoff * 2) 20 }.loopHead
  | connected (hrun : s.run = .connecting) : Stepped maxSessions s
      { s with
        run := .serving .idle, websocket := some s.connections, connections := s.connections + 1
        backoff := 1, waits := [] }
  | finalized (cancelled : Bool) (hrun : s.run = .connecting ∨ ∃ c, s.run = .leaving c) :
      Stepped maxSessions s (s.finalize cancelled)
  | handled {handler : HandlerAt κ} {t : Service κ} (hrun : s.run = .serving handler)
      (h : (∀ id, handler = .replacing id → id ∉ s.sessions) → Handles s t) : Stepped maxSessions s t
  | left (cancelled : Bool) {handler : HandlerAt κ} (hrun : s.run = .serving handler) :
      Stepped maxSessions s { s with run := .leaving cancelled }
  | swept {cancelled : Bool} {todo : List κ} (hrun : s.run = .sweeping cancelled todo) :
      Stepped maxSessions s (s.sweepOn cancelled todo)
  | raised (hrun : (∃ cancelled todo, s.run = .sweeping cancelled todo) ∨ s.run = .sleeping) :
      Stepped maxSessions s { s with run := .raised }
  | stopped : Stepped maxSessions s s.stop
  | resumed {i : ℕ} {raised : Bool} {c : StopCall κ} {t : Service κ} {place : StopAt κ}
      (hc : s.calls[i]? = some c) (h : s.resumeStop raised c = some (t, place)) :
      Stepped maxSessions s { t with calls := t.calls.set i { c with place := place } }

theorem step_cases {maxSessions : ℤ} {e : Event κ} (h : step maxSessions s e = some t) : Stepped maxSessions s t := by
  unfold step at h
  split at h
  · rename_i hrun
    obtain rfl := Option.some.inj h
    exact .began hrun
  · rename_i hrun
    obtain rfl := Option.some.inj h
    exact .awoke hrun
  · rename_i hrun
    obtain rfl := Option.some.inj h
    exact .connected hrun
  · rename_i hrun
    obtain rfl := Option.some.inj h
    exact .finalized false (Or.inl hrun)
  · rename_i m hrun
    obtain rfl := Option.some.inj h
    exact .handled hrun fun _ => handle_handles maxSessions m hrun
  · rename_i raised constructs handler hrun
    exact .handled hrun fun hfree => resume_handles hfree h
  · rename_i hrun
    obtain rfl := Option.some.inj h
    exact .left false hrun
  · rename_i raised cancelled hrun
    obtain rfl := Option.some.inj h
    exact .finalized (cancelled && !raised) (Or.inr ⟨cancelled, hrun⟩)
  · rename_i raised cancelled todo hrun
    obtain rfl := Option.some.inj h
    cases raised with
    | true => exact .raised (Or.inl ⟨cancelled, todo, hrun⟩)
    | false => exact .swept hrun
  · unfold cancel at h
    split at h
    · rename_i hrun
      obtain rfl := Option.some.inj h
      exact .finalized true (Or.inl hrun)
    · rename_i handler hrun
      obtain rfl := Option.some.inj h
      exact .left true hrun
    · rename_i cancelled hrun
      obtain rfl := Option.some.inj h
      exact .finalized true (Or.inr ⟨cancelled, hrun⟩)
    · rename_i cancelled todo hrun
      obtain rfl := Option.some.inj h
      exact .raised (Or.inl ⟨cancelled, todo, hrun⟩)
    · rename_i hrun
      obtain rfl := Option.some.inj h
      exact .raised (Or.inr hrun)
    · cases h
  · obtain rfl := Option.some.inj h
    exact .stopped
  · rename_i i raised
    obtain ⟨c, hc, h⟩ := Option.bind_eq_some_iff.mp h
    obtain ⟨⟨t', place⟩, hresume, rfl⟩ := Option.map_eq_some_iff.mp h
    exact .resumed hc hresume
  · cases h

/-! ## The invariant -/

/-- What is known where `run` is. -/
def AtPlace (s : Service κ) : Prop :=
  match s.run with
  | .serving handler => s.websocket ≠ none ∧ ∀ id, handler = .replacing id → id ∉ s.sessions
  | .leaving _ => True
  | .sweeping _ todo => s.websocket = none ∧ ∀ k ∈ s.sessions, k ∈ todo
  | .raised => s.websocket = none
  | _ => s.websocket = none ∧ s.sessions = ∅

/-- `run` neither waits for a connection nor has another one than this. -/
def Quiet (number : Option ℕ) (s : Service κ) : Prop :=
  s.runConnecting = false ∧ ∀ m, s.websocket = some m → number = some m

/-- What a call of `stop` has seen to. -/
def Seen (s : Service κ) : StopAt κ → Prop
  | .closing number => s.Quiet (some number)
  | .returned (.connection number) => s.Quiet (some number)
  | .returned (.nothing false) => s.Quiet none
  | _ => True

/-- The sessions a call of `stop` leaves, if `run` had ended when it came. -/
def Leaves (s : Service κ) : StopAt κ → Prop
  | .sweeping todo => ∀ k ∈ s.sessions, k ∈ todo
  | .raised => True
  | _ => s.sessions = ∅

/-- What holds of a call of `stop`. -/
structure CallKept (s : Service κ) (c : StopCall κ) : Prop where
  stopping : s.stopping = true
  seen : s.Seen c.place
  leaves : c.afterRun = true → s.runEnded = true ∧ s.Leaves c.place

/-- `run` is neither in a sleep nor has it raised. -/
def awake (s : Service κ) : Prop := s.run ≠ .sleeping ∧ s.run ≠ .raised

/-- The waits so far, and the next one: in a sleep it is still the last one. -/
structure Waited (s : Service κ) : Prop where
  waits : s.waits = (List.range s.waits.length).map fun j => min (2 ^ j) 20
  backoff : s.awake → s.backoff = min (2 ^ s.waits.length) 20
  slept : s.run = .sleeping → ∃ n, s.waits.length = n + 1 ∧ s.backoff = min (2 ^ n) 20

/-- **The invariant.** -/
structure Coherent (s : Service κ) : Prop where
  accounted : s.Accounted
  place : s.AtPlace
  calls : ∀ c ∈ s.calls, s.CallKept c
  waited : s.Waited

/-! ### Sessions that leave the table -/

theorem Pops.run (h : Pops s t) : t.run = s.run := by rw [h.frame]

theorem Pops.websocket (h : Pops s t) : t.websocket = s.websocket := by rw [h.frame]

theorem Pops.runEnded (h : Pops s t) : t.runEnded = s.runEnded := by rw [Service.runEnded, h.run, Service.runEnded]

theorem AtPlace.pops (hs : s.AtPlace) (h : Pops s t) : t.AtPlace := by
  unfold AtPlace at hs ⊢
  rw [h.run, h.websocket]
  split at hs
  · exact ⟨hs.1, fun id hid hk => hs.2 id hid (h.shrinks hk)⟩
  · trivial
  · exact ⟨hs.1, fun k hk => hs.2 k (h.shrinks hk)⟩
  · exact hs
  · exact ⟨hs.1, h.empty hs.2⟩

omit [DecidableEq κ] in
/-- What keeps what a call has seen to: `run` begins no attempt and gets no connection. -/
theorem Seen.step {place : StopAt κ} (hs : s.Seen place)
    (h : s.runConnecting = false → t.runConnecting = false ∧ ∀ m, t.websocket = some m → s.websocket = some m) :
    t.Seen place := by
  have hquiet : ∀ number, s.Quiet number → t.Quiet number := fun number hq =>
    ⟨(h hq.1).1, fun m hm => hq.2 m ((h hq.1).2 m hm)⟩
  cases place with
  | sweeping todo => trivial
  | closing number => exact hquiet _ hs
  | returned found =>
    cases found with
    | connection number => exact hquiet _ hs
    | nothing connecting =>
      cases connecting with
      | true => trivial
      | false => exact hquiet _ hs
  | raised => trivial

omit [DecidableEq κ] in
/-- The table only gets smaller. -/
theorem Leaves.step {place : StopAt κ} (hs : s.Leaves place) (h : ∀ k ∈ t.sessions, k ∈ s.sessions) :
    t.Leaves place := by
  have hempty : s.sessions = ∅ → t.sessions = ∅ := fun hs => by
    have hnone : t.sessions.entries = [] := List.eq_nil_iff_forall_not_mem.mpr fun e he => by
      have hmem := h e.1 (AList.mem_keys.mp (List.mem_map_of_mem he))
      rw [hs] at hmem
      exact AList.notMem_empty _ hmem
    exact AList.ext hnone
  cases place with
  | sweeping todo => exact fun k hk => hs k (h k hk)
  | closing number => exact hempty hs
  | returned found => exact hempty hs
  | raised => trivial

/-- What a step does to the calls of `stop` that are not taking it. -/
structure Effect (s t : Service κ) : Prop where
  stopping : s.stopping = true → t.stopping = true
  quiet : s.stopping = true → s.runConnecting = false →
    t.runConnecting = false ∧ ∀ m, t.websocket = some m → s.websocket = some m
  ended : s.runEnded = true → t.runEnded = true ∧ ∀ k ∈ t.sessions, k ∈ s.sessions
  attempts : s.stopping = true → t.attempts = s.attempts

omit [DecidableEq κ] in
theorem CallKept.step {c : StopCall κ} (hs : s.CallKept c) (h : Effect s t) : t.CallKept c where
  stopping := h.stopping hs.stopping
  seen := hs.seen.step (h.quiet hs.stopping)
  leaves hafter :=
    have hleaves := hs.leaves hafter
    ⟨(h.ended hleaves.1).1, hleaves.2.step (h.ended hleaves.1).2⟩

theorem Pops.effect (h : Pops s t) : Effect s t where
  stopping hs := by rwa [h.frame]
  quiet _ hq := ⟨by rwa [runConnecting, h.run], fun m hm => h.websocket ▸ hm⟩
  ended he := ⟨h.runEnded ▸ he, fun k hk => h.shrinks hk⟩
  attempts _ := by rw [h.frame]

/-! ### Every step -/

/-- What the loop of `stop_all_sessions` in a call of `stop` leaves, and where it comes to. -/
theorem stopOn_cases (todo : List κ) (s : Service κ) : Pops s (s.stopOn todo).1 ∧
    ((∃ rest, (s.stopOn todo).2 = .sweeping rest) ∨ (s.stopOn todo).2 = (s.stopOn todo).1.stopPlace) ∧
      ((∀ k ∈ s.sessions, k ∈ todo) → (s.stopOn todo).1.Leaves (s.stopOn todo).2) := by
  have hpops := sweep_pops todo s
  have hcovers : (∀ k ∈ s.sessions, k ∈ todo) → _ := sweep_covers
  unfold stopOn
  generalize s.sweep todo = r at hpops hcovers ⊢
  obtain ⟨t, rest⟩ := r
  cases rest with
  | some rest => exact ⟨hpops, Or.inl ⟨rest, rfl⟩, fun h => (hcovers h).1 rest rfl⟩
  | none =>
    refine ⟨hpops, Or.inr rfl, fun h => ?_⟩
    have hempty := (hcovers h).2 rfl
    change t.Leaves t.stopPlace
    unfold stopPlace
    split
    · exact hempty
    · exact hempty

omit [DecidableEq κ] in
/-- Where a call of `stop` comes to behind the loop, it has seen to what it found. -/
theorem AtPlace.seen_stopPlace (hs : s.AtPlace) : s.Seen s.stopPlace := by
  unfold stopPlace
  cases hwebsocket : s.websocket with
  | some number =>
    refine ⟨?_, fun m hm => (Option.some.inj (hwebsocket.symm.trans hm)) ▸ rfl⟩
    unfold AtPlace at hs
    unfold runConnecting
    cases hrun : s.run with
    | connecting =>
      rw [hrun, hwebsocket] at hs
      cases hs.1
    | _ => rfl
  | none =>
    cases hrun : s.runConnecting with
    | true => trivial
    | false => exact ⟨hrun, fun m hm => by rw [hwebsocket] at hm; cases hm⟩

theorem Handles.effect {handler : HandlerAt κ} (hrun : s.run = .serving handler) (h : Handles s t) : Effect s t := by
  have hended : s.runEnded ≠ true := by
    rw [runEnded, hrun]
    exact Bool.false_ne_true
  cases h with
  | waits handler => exact ⟨id, fun _ _ => ⟨rfl, fun _ hm => hm⟩, fun he => absurd he hended, fun _ => rfl⟩
  | popped hpop handler =>
    obtain ⟨object, -, rfl⟩ := pop_eq_some hpop
    exact ⟨id, fun _ _ => ⟨rfl, fun _ hm => hm⟩, fun he => absurd he hended, fun _ => rfl⟩
  | entered => exact ⟨id, fun _ _ => ⟨rfl, fun _ hm => hm⟩, fun he => absurd he hended, fun _ => rfl⟩

omit [DecidableEq κ] in
theorem afterFinally_effect (cancelled : Bool) (hended : s.runEnded ≠ true) : Effect s (s.afterFinally cancelled) := by
  unfold afterFinally
  split
  · exact ⟨id, fun _ _ => ⟨rfl, fun _ hm => hm⟩, fun he => absurd he hended, fun _ => rfl⟩
  · exact ⟨id, fun _ _ => ⟨rfl, fun _ hm => hm⟩, fun he => absurd he hended, fun _ => rfl⟩

omit [DecidableEq κ] in
theorem Effect.trans (h : Effect s t) (h' : Effect t u) : Effect s u where
  stopping hs := h'.stopping (h.stopping hs)
  quiet hs hq :=
    have ht := h.quiet hs hq
    have hu := h'.quiet (h.stopping hs) ht.1
    ⟨hu.1, fun m hm => ht.2 m (hu.2 m hm)⟩
  ended he :=
    have ht := h.ended he
    have hu := h'.ended ht.1
    ⟨hu.1, fun k hk => ht.2 k (hu.2 k hk)⟩
  attempts hs := (h'.attempts (h.stopping hs)).trans (h.attempts hs)

theorem SweptOn.effect {cancelled : Bool} (hended : s.runEnded ≠ true) (h : SweptOn cancelled s t) : Effect s t := by
  cases h with
  | waits hpops =>
    refine hpops.effect.trans ⟨id, fun _ _ => ⟨rfl, fun _ hm => hm⟩, fun he => ?_, fun _ => rfl⟩
    exact absurd (hpops.runEnded ▸ he) hended
  | done hpops =>
    exact hpops.effect.trans (afterFinally_effect cancelled fun he => hended (hpops.runEnded ▸ he))

omit [DecidableEq κ] in
theorem loopHead_effect (hended : s.runEnded ≠ true) : Effect s s.loopHead := by
  unfold loopHead
  split
  · exact ⟨id, fun _ _ => ⟨rfl, fun _ hm => hm⟩, fun he => absurd he hended, fun _ => rfl⟩
  · rename_i hstopping
    exact ⟨id, fun hs => absurd hs hstopping, fun he => absurd he hended, fun hs => absurd hs hstopping⟩

/-- What a call of `stop` does behind `stopping.set()`. -/
theorem stopOn_effect (todo : List κ) (s : Service κ) : Effect s (s.stopOn todo).1 := (stopOn_cases todo s).1.effect

theorem finalize_effect (cancelled : Bool) (hended : s.runEnded ≠ true) : Effect s (s.finalize cancelled) := by
  have hnone : Effect s { s with websocket := none } :=
    ⟨id, fun _ hq => ⟨hq, fun _ hm => by cases hm⟩, fun he => absurd he hended, fun _ => rfl⟩
  exact hnone.trans ((finalize_cases cancelled s).effect hended)

theorem Stepped.effect {maxSessions : ℤ} (hs : s.Coherent) (h : Stepped maxSessions s t) : Effect s t := by
  have hplace := hs.place
  unfold AtPlace at hplace
  have hended : ∀ {run : RunAt κ}, s.run = run → run.hasEnded = false → s.runEnded ≠ true :=
    fun hrun hfalse he => by
      rw [runEnded, hrun, hfalse] at he
      cases he
  cases h with
  | began hrun => exact loopHead_effect (hended hrun rfl)
  | awoke hrun =>
    have hawoke : Effect s { s with backoff := min (s.backoff * 2) 20 } :=
      ⟨id, fun _ hq => ⟨hq, fun _ hm => hm⟩, fun he => absurd he (hended hrun rfl), fun _ => rfl⟩
    exact hawoke.trans (loopHead_effect (hended hrun rfl))
  | connected hrun =>
    refine ⟨id, fun _ hq => ?_, fun he => absurd he (hended hrun rfl), fun _ => rfl⟩
    rw [runConnecting, hrun] at hq
    cases hq
  | finalized cancelled hrun =>
    refine finalize_effect cancelled ?_
    rcases hrun with hrun | ⟨c, hrun⟩
    · exact hended hrun rfl
    · exact hended hrun rfl
  | handled hrun h =>
    rw [hrun] at hplace
    exact (h hplace.2).effect hrun
  | left cancelled hrun =>
    exact ⟨id, fun _ _ => ⟨rfl, fun _ hm => hm⟩, fun he => absurd he (hended hrun rfl), fun _ => rfl⟩
  | swept hrun =>
    rw [hrun] at hplace
    exact (sweepOn_cases _ hplace.2).effect (hended hrun rfl)
  | raised hrun =>
    refine ⟨id, fun _ _ => ⟨rfl, fun _ hm => hm⟩, fun he => absurd he ?_, fun _ => rfl⟩
    rcases hrun with ⟨c, todo, hrun⟩ | hrun
    · exact hended hrun rfl
    · exact hended hrun rfl
  | stopped =>
    have hset : Effect s { s with stopping := true } :=
      ⟨fun _ => rfl, fun _ hq => ⟨hq, fun _ hm => hm⟩, fun he => ⟨he, fun _ hk => hk⟩, fun _ => rfl⟩
    have hsweep := hset.trans (stopOn_effect s.keys _)
    exact ⟨hsweep.stopping, hsweep.quiet, hsweep.ended, hsweep.attempts⟩
  | resumed hc h =>
    rename_i i raised c u place
    have hu : Effect s u := by
      unfold resumeStop at h
      split at h
      · rename_i todo hplace
        split at h
        · obtain ⟨rfl, -⟩ := Prod.mk.inj (Option.some.inj h)
          exact (Pops.refl _).effect
        · have hsweep := stopOn_effect todo s
          rwa [Option.some.inj h] at hsweep
      · obtain ⟨rfl, -⟩ := Prod.mk.inj (Option.some.inj h)
        exact (Pops.refl _).effect
      · cases h
    exact ⟨hu.stopping, hu.quiet, hu.ended, hu.attempts⟩

/-! ### The invariant is kept -/

theorem Accounted.congr (hs : s.Accounted) (hsessions : t.sessions = s.sessions) (hstopped : t.stopped = s.stopped)
    (hentered : t.entered = s.entered) : t.Accounted where
  nodup := hstopped ▸ hs.nodup
  known := hstopped ▸ hentered ▸ hs.known
  held := hsessions ▸ hstopped ▸ hentered ▸ hs.held
  single := hsessions ▸ hs.single
  all := hsessions ▸ hstopped ▸ hentered ▸ hs.all

theorem Handles.accounted (hs : s.Accounted) (h : Handles s t) : t.Accounted := by
  cases h with
  | waits handler => exact hs.congr rfl rfl rfl
  | popped hpop handler => exact (hs.pop hpop).congr rfl rfl rfl
  | entered hid => exact (hs.enter hid).congr rfl rfl rfl

theorem Accounted.afterFinally (hs : s.Accounted) (cancelled : Bool) : (s.afterFinally cancelled).Accounted := by
  unfold Service.afterFinally
  split
  · exact hs.congr rfl rfl rfl
  · exact hs.congr rfl rfl rfl

theorem Accounted.loopHead (hs : s.Accounted) : s.loopHead.Accounted := by
  unfold Service.loopHead
  split
  · exact hs.congr rfl rfl rfl
  · exact hs.congr rfl rfl rfl

theorem SweptOn.accounted {cancelled : Bool} (hs : s.Accounted) (h : SweptOn cancelled s t) : t.Accounted := by
  cases h with
  | waits hpops => exact (hs.pops hpops).congr rfl rfl rfl
  | done hpops => exact (hs.pops hpops).afterFinally cancelled

/-- What a step of a call of `stop` does to the service. -/
theorem resumeStop_pops {raised : Bool} {c : StopCall κ} {place : StopAt κ}
    (h : s.resumeStop raised c = some (t, place)) : Pops s t := by
  unfold resumeStop at h
  split at h
  · rename_i todo hplace
    split at h
    · obtain ⟨rfl, -⟩ := Prod.mk.inj (Option.some.inj h)
      exact .refl _
    · have hsweep := (stopOn_cases todo s).1
      rwa [Option.some.inj h] at hsweep
  · obtain ⟨rfl, -⟩ := Prod.mk.inj (Option.some.inj h)
    exact .refl _
  · cases h

/-- The state of a call of `stop` behind `stopping.set()` and the loop. -/
theorem stop_pops (s : Service κ) :
    Pops { s with stopping := true } ({ s with stopping := true }.stopOn s.keys).1 := (stopOn_cases _ _).1

theorem Stepped.accounted {maxSessions : ℤ} (hs : s.Coherent) (h : Stepped maxSessions s t) : t.Accounted := by
  have hplace := hs.place
  unfold AtPlace at hplace
  have haccounted := hs.accounted
  cases h with
  | began hrun => exact haccounted.loopHead
  | awoke hrun =>
    have hawoke : Accounted { s with backoff := min (s.backoff * 2) 20 } := haccounted.congr rfl rfl rfl
    exact hawoke.loopHead
  | connected hrun => exact haccounted.congr rfl rfl rfl
  | finalized cancelled hrun =>
    have hnone : Accounted { s with websocket := none } := haccounted.congr rfl rfl rfl
    exact (finalize_cases cancelled s).accounted hnone
  | handled hrun h =>
    rw [hrun] at hplace
    exact (h hplace.2).accounted haccounted
  | left cancelled hrun => exact haccounted.congr rfl rfl rfl
  | swept hrun =>
    rw [hrun] at hplace
    exact (sweepOn_cases _ hplace.2).accounted haccounted
  | raised hrun => exact haccounted.congr rfl rfl rfl
  | stopped =>
    have hset : Accounted { s with stopping := true } := haccounted.congr rfl rfl rfl
    exact (hset.pops s.stop_pops).congr rfl rfl rfl
  | resumed hc h => exact (haccounted.pops (resumeStop_pops h)).congr rfl rfl rfl

theorem SweptOn.place {cancelled : Bool} (hnone : s.websocket = none) (h : SweptOn cancelled s t) : t.AtPlace := by
  cases h with
  | waits hpops hcovers => exact ⟨hpops.websocket.trans hnone, hcovers⟩
  | done hpops hempty =>
    unfold afterFinally
    split
    · exact ⟨hpops.websocket.trans hnone, hempty⟩
    · exact ⟨hpops.websocket.trans hnone, hempty⟩

omit [DecidableEq κ] in
theorem loopHead_place (hnone : s.websocket = none) (hempty : s.sessions = ∅) : s.loopHead.AtPlace := by
  unfold loopHead
  split
  · exact ⟨hnone, hempty⟩
  · exact ⟨hnone, hempty⟩

theorem Handles.place (hsome : s.websocket ≠ none) (h : Handles s t) : t.AtPlace := by
  cases h with
  | waits handler hnot => exact ⟨hsome, fun id hid => absurd hid (hnot id)⟩
  | popped hpop handler hid =>
    obtain ⟨object, -, rfl⟩ := pop_eq_some hpop
    refine ⟨hsome, fun k hk hmem => ?_⟩
    rw [hid k hk] at hmem
    exact (AList.mem_erase.mp hmem).1 rfl
  | entered hid => exact ⟨hsome, fun k hk => by cases hk⟩

theorem Stepped.place {maxSessions : ℤ} (hs : s.Coherent) (h : Stepped maxSessions s t) : t.AtPlace := by
  have hplace := hs.place
  have hat := hs.place
  unfold AtPlace at hplace
  cases h with
  | began hrun =>
    rw [hrun] at hplace
    exact loopHead_place hplace.1 hplace.2
  | awoke hrun =>
    rw [hrun] at hplace
    exact loopHead_place hplace.1 hplace.2
  | connected hrun => exact ⟨Option.some_ne_none _, fun id hid => by cases hid⟩
  | finalized cancelled hrun => exact (finalize_cases cancelled s).place rfl
  | handled hrun h =>
    rw [hrun] at hplace
    exact (h hplace.2).place hplace.1
  | left cancelled hrun => exact trivial
  | swept hrun =>
    rw [hrun] at hplace
    exact (sweepOn_cases _ hplace.2).place hplace.1
  | raised hrun =>
    rcases hrun with ⟨c, todo, hrun⟩ | hrun
    · rw [hrun] at hplace
      exact hplace.1
    · rw [hrun] at hplace
      exact hplace.1
  | stopped =>
    have hset : ({ s with stopping := true } : Service κ).AtPlace := hat
    have hswept := hset.pops s.stop_pops
    exact hswept
  | resumed hc h =>
    have hresumed := hat.pops (resumeStop_pops h)
    exact hresumed

/-! ### The calls of `stop` -/

theorem Pops.calls (h : Pops s t) : t.calls = s.calls := by rw [h.frame]

theorem Handles.calls (h : Handles s t) : t.calls = s.calls := by
  cases h with
  | waits handler => rfl
  | popped hpop handler => exact (Pops.pop hpop (.refl _)).calls
  | entered => rfl

theorem SweptOn.calls {cancelled : Bool} (h : SweptOn cancelled s t) : t.calls = s.calls := by
  cases h with
  | waits hpops => exact hpops.calls
  | done hpops =>
    rw [← hpops.calls]
    unfold afterFinally
    split <;> rfl

/-- What a call of `stop` has seen to and leaves behind the loop. -/
theorem stopOn_kept (hs : s.AtPlace) (todo : List κ) : (s.stopOn todo).1.Seen (s.stopOn todo).2 := by
  obtain ⟨hpops, hplace, -⟩ := stopOn_cases todo s
  rcases hplace with ⟨rest, hrest⟩ | hplace
  · rw [hrest]
    trivial
  · rw [hplace]
    exact (hs.pops hpops).seen_stopPlace

/-- A step of a call of `stop` that had left the sessions it goes to. -/
theorem CallKept.resume {raised : Bool} {c : StopCall κ} {place : StopAt κ} (hs : s.CallKept c) (hat : s.AtPlace)
    (h : s.resumeStop raised c = some (t, place)) : t.CallKept { c with place := place } := by
  have hpops := resumeStop_pops h
  have hseen := hs.seen
  have hleaves := hs.leaves
  have hended : s.runEnded = true → t.runEnded = true := fun he => hpops.runEnded ▸ he
  refine ⟨hpops.effect.stopping hs.stopping, ?_, fun hafter => ⟨hended (hleaves hafter).1, ?_⟩⟩
  · unfold resumeStop at h
    split at h
    · split at h
      · obtain ⟨rfl, rfl⟩ := Prod.mk.inj (Option.some.inj h)
        trivial
      · rename_i todo hplace hraised
        have hkept := stopOn_kept hat todo
        rwa [Option.some.inj h] at hkept
    · rename_i number hplace
      obtain ⟨rfl, rfl⟩ := Prod.mk.inj (Option.some.inj h)
      rw [hplace] at hseen
      cases raised with
      | true => trivial
      | false => exact hseen
    · cases h
  · obtain ⟨-, hleft⟩ := hleaves hafter
    unfold resumeStop at h
    split at h
    · rename_i todo hplace
      rw [hplace] at hleft
      split at h
      · obtain ⟨rfl, rfl⟩ := Prod.mk.inj (Option.some.inj h)
        trivial
      · have hcases := (stopOn_cases todo s).2.2 hleft
        rwa [Option.some.inj h] at hcases
    · rename_i number hplace
      obtain ⟨rfl, rfl⟩ := Prod.mk.inj (Option.some.inj h)
      rw [hplace] at hleft
      cases raised with
      | true => trivial
      | false => exact hleft
    · cases h

/-- What holds of a new call of `stop`. -/
theorem callKept_stop (hat : s.AtPlace) :
    ({ s with stopping := true }.stopOn s.keys).1.CallKept
      ⟨({ s with stopping := true }.stopOn s.keys).2, s.runEnded⟩ := by
  have hset : ({ s with stopping := true } : Service κ).AtPlace := hat
  obtain ⟨hpops, -, hleaves⟩ := stopOn_cases s.keys { s with stopping := true }
  exact ⟨hpops.effect.stopping rfl, stopOn_kept hset s.keys,
    fun hafter => ⟨hpops.runEnded.trans hafter, hleaves s.mem_keys⟩⟩

theorem Stepped.calls {maxSessions : ℤ} (hs : s.Coherent) (h : Stepped maxSessions s t) :
    ∀ c ∈ t.calls, t.CallKept c := by
  have hplace := hs.place
  unfold AtPlace at hplace
  have heffect := h.effect hs
  have hkept : ∀ c ∈ s.calls, t.CallKept c := fun c hc => (hs.calls c hc).step heffect
  have hsame : t.calls = s.calls → ∀ c ∈ t.calls, t.CallKept c := fun heq c hc => hkept c (heq ▸ hc)
  cases h with
  | began hrun =>
    refine hsame ?_
    unfold loopHead
    split <;> rfl
  | awoke hrun =>
    refine hsame ?_
    unfold loopHead
    split <;> rfl
  | connected hrun => exact hsame rfl
  | finalized cancelled hrun => exact hsame (finalize_cases cancelled s).calls
  | handled hrun h =>
    rw [hrun] at hplace
    exact hsame (h hplace.2).calls
  | left cancelled hrun => exact hsame rfl
  | swept hrun =>
    rw [hrun] at hplace
    exact hsame (sweepOn_cases _ hplace.2).calls
  | raised hrun => exact hsame rfl
  | stopped =>
    have hnew := callKept_stop hs.place
    have hcalls : s.stop.calls = s.calls ++ [⟨({ s with stopping := true }.stopOn s.keys).2, s.runEnded⟩] :=
      congrArg (· ++ _) s.stop_pops.calls
    intro c hc
    rw [hcalls] at hc
    rcases List.mem_append.mp hc with hc | hc
    · exact hkept c hc
    · rw [List.mem_singleton.mp hc]
      exact ⟨hnew.stopping, hnew.seen, hnew.leaves⟩
  | resumed hc h =>
    rename_i i raised c u place
    have hnew := (hs.calls c (List.mem_of_getElem? hc)).resume hs.place h
    intro d hd
    rcases List.mem_or_eq_of_mem_set hd with hd | rfl
    · exact hkept d ((resumeStop_pops h).calls ▸ hd)
    · exact ⟨hnew.stopping, hnew.seen, hnew.leaves⟩

/-! ### The waits -/

omit [DecidableEq κ] in
/-- Neither the waits nor the next one are touched, nor is `run` put to sleep. -/
theorem Waited.congr (hs : s.Waited) (hwaits : t.waits = s.waits) (hbackoff : t.backoff = s.backoff)
    (hawake : t.awake → s.awake) (hslept : t.run = .sleeping → s.run = .sleeping) : t.Waited where
  waits := hwaits ▸ hs.waits
  backoff h := by rw [hbackoff, hwaits, hs.backoff (hawake h)]
  slept h := by
    rw [hbackoff, hwaits]
    exact hs.slept (hslept h)

theorem Pops.waited (h : Pops s t) (hs : s.Waited) : t.Waited :=
  hs.congr (by rw [h.frame]) (by rw [h.frame]) (fun ha => by rwa [awake, h.run] at ha) fun hr => h.run ▸ hr

omit [DecidableEq κ] in
theorem loopHead_waited (hs : s.Waited) (hawake : s.awake) : s.loopHead.Waited := by
  unfold loopHead
  split
  · exact hs.congr rfl rfl (fun _ => hawake) fun h => by cases h
  · exact hs.congr rfl rfl (fun _ => hawake) fun h => by cases h

omit [DecidableEq κ] in
/-- A sleep adds the next wait. -/
theorem afterFinally_waited (cancelled : Bool) (hs : s.Waited) (hawake : s.awake) :
    (s.afterFinally cancelled).Waited := by
  have hbackoff := hs.backoff hawake
  unfold afterFinally
  split
  · exact hs.congr rfl rfl (fun _ => hawake) fun h => by cases h
  · refine ⟨?_, fun h => absurd rfl h.1, fun _ => ⟨s.waits.length, ?_, hbackoff⟩⟩
    · rw [List.length_append, List.length_singleton, List.range_succ, List.map_append, ← hs.waits, hbackoff]
      rfl
    · exact List.length_append

theorem SweptOn.waited {cancelled : Bool} (hs : s.Waited) (hawake : s.awake) (h : SweptOn cancelled s t) :
    t.Waited := by
  cases h with
  | waits hpops => exact (hpops.waited hs).congr rfl rfl (fun _ => by rwa [awake, hpops.run]) fun h => by cases h
  | done hpops => exact afterFinally_waited cancelled (hpops.waited hs) (by rwa [awake, hpops.run])

theorem Handles.waited (hs : s.Waited) (hawake : s.awake) (h : Handles s t) : t.Waited := by
  cases h with
  | waits handler => exact hs.congr rfl rfl (fun _ => hawake) fun h => by cases h
  | popped hpop handler =>
    obtain ⟨object, -, rfl⟩ := pop_eq_some hpop
    exact hs.congr rfl rfl (fun _ => hawake) fun h => by cases h
  | entered => exact hs.congr rfl rfl (fun _ => hawake) fun h => by cases h

theorem Stepped.waited {maxSessions : ℤ} (hs : s.Coherent) (h : Stepped maxSessions s t) : t.Waited := by
  have hplace := hs.place
  unfold AtPlace at hplace
  have hwaited := hs.waited
  have hawake : ∀ {run : RunAt κ}, s.run = run → run ≠ .sleeping → run ≠ .raised → s.awake :=
    fun hrun hslept hraised => by
      rw [awake, hrun]
      exact ⟨hslept, hraised⟩
  cases h with
  | began hrun => exact loopHead_waited hwaited (hawake hrun nofun nofun)
  | awoke hrun =>
    obtain ⟨n, hlength, hbackoff⟩ := hwaited.slept hrun
    have hdouble : min (s.backoff * 2) 20 = min (2 ^ s.waits.length) 20 := by
      rw [hbackoff, hlength, pow_succ]
      omega
    unfold loopHead
    split
    · exact ⟨hwaited.waits, fun _ => hdouble, fun h => by cases h⟩
    · exact ⟨hwaited.waits, fun _ => hdouble, fun h => by cases h⟩
  | connected hrun => exact ⟨rfl, fun _ => rfl, fun h => by cases h⟩
  | finalized cancelled hrun =>
    have hnone : Waited { s with websocket := none } := hwaited.congr rfl rfl id id
    refine (finalize_cases cancelled s).waited hnone ?_
    rcases hrun with hrun | ⟨c, hrun⟩
    · exact hawake hrun nofun nofun
    · exact hawake hrun nofun nofun
  | handled hrun h =>
    rw [hrun] at hplace
    exact (h hplace.2).waited hwaited (hawake hrun nofun nofun)
  | left cancelled hrun => exact hwaited.congr rfl rfl (fun _ => hawake hrun nofun nofun) fun h => by cases h
  | swept hrun =>
    rw [hrun] at hplace
    exact (sweepOn_cases _ hplace.2).waited hwaited (hawake hrun nofun nofun)
  | raised hrun => exact hwaited.congr rfl rfl (fun h => absurd rfl h.2) fun h => by cases h
  | stopped =>
    have hset : Waited { s with stopping := true } := hwaited.congr rfl rfl id id
    have hswept := s.stop_pops.waited hset
    exact hswept.congr rfl rfl id id
  | resumed hc h =>
    have hresumed := (resumeStop_pops h).waited hwaited
    exact hresumed.congr rfl rfl id id

/-! ## Runs -/

/-- **Every step keeps the invariant.** -/
theorem Coherent.step {maxSessions : ℤ} {e : Event κ} (hs : s.Coherent) (h : Service.step maxSessions s e = some t) :
    t.Coherent :=
  have hstepped := step_cases h
  ⟨hstepped.accounted hs, hstepped.place hs, hstepped.calls hs, hstepped.waited hs⟩

theorem coherent_initial : ({} : Service κ).Coherent where
  accounted :=
    ⟨List.nodup_nil, fun _ h => absurd h List.not_mem_nil, fun _ _ h => (Option.some_ne_none _ h.symm).elim,
      fun _ _ _ h => (Option.some_ne_none _ h.symm).elim, fun _ h => absurd h (Nat.not_lt_zero _)⟩
  place := ⟨rfl, rfl⟩
  calls := fun _ h => absurd h List.not_mem_nil
  waited := ⟨rfl, fun _ => rfl, fun h => by cases h⟩

/-- **From one step to all runs.** -/
theorem coherent_after (maxSessions : ℤ) (es : List (Event κ)) : (after maxSessions es).Coherent :=
  Run.final_of_step (fun _ _ _ hs h => hs.step h) coherent_initial es

/-- What every step does, every run does. -/
theorem effect_after (maxSessions : ℤ) (es es' : List (Event κ)) :
    Effect (after maxSessions es) (after maxSessions (es ++ es')) := by
  have hrefl : Effect (after maxSessions es) (after maxSessions es) := (Pops.refl _).effect
  have hfinal : (after maxSessions (es ++ es')).Coherent ∧
      Effect (after maxSessions es) (after maxSessions (es ++ es')) := by
    unfold after
    rw [Run.final_append]
    exact Run.final_of_step (P := fun t => t.Coherent ∧ Effect (after maxSessions es) t)
      (fun _ _ _ ht h => ⟨ht.1.step h, ht.2.trans ((step_cases h).effect ht.1)⟩)
      ⟨coherent_after maxSessions es, hrefl⟩ es'
  exact hfinal.2

/-- `run` has no connection and is not in its `finally` block. -/
def betweenConnections (s : Service κ) : Bool :=
  match s.run with
  | .head => true
  | .connecting => true
  | .sleeping => true
  | .returned => true
  | _ => false

/-- A call of `stop` that came after the end of `run` has returned. -/
def StoppedAfterwards (s : Service κ) : Prop := ∃ c ∈ s.calls, c.afterRun = true ∧ ∃ found, c.place = .returned found

theorem Coherent.sessions_empty (hs : s.Coherent) (h : s.betweenConnections = true ∨ s.StoppedAfterwards) :
    s.sessions = ∅ := by
  rcases h with hrun | ⟨c, hc, hafter, found, hplace⟩
  · have hplace := hs.place
    unfold AtPlace at hplace
    unfold betweenConnections at hrun
    cases hat : s.run with
    | head | connecting | sleeping | returned =>
      rw [hat] at hplace
      exact hplace.2
    | serving handler | leaving cancelled | sweeping cancelled todo | raised =>
      rw [hat] at hrun
      cases hrun
  · have hleaves := ((hs.calls c hc).leaves hafter).2
    rwa [hplace] at hleaves

/-- **No session is lost or stopped twice**, in any order of the steps of `run`, its handlers and the calls of
`stop`, whatever raises: a session object is in the table under one id or has been stopped, once. All have been
stopped once when `run` is between two connections or has returned, and, however `run` ended, when a call of
`stop` after it has returned. -/
theorem sessions_stopped_once (maxSessions : ℤ) (es : List (Event κ)) :
    (after maxSessions es).stopped.Nodup ∧
      (∀ o, o < (after maxSessions es).entered ↔
        (o ∈ (after maxSessions es).stopped ∨ ∃ k, (after maxSessions es).sessions.lookup k = some o)) ∧
      (∀ k o, (after maxSessions es).sessions.lookup k = some o → o ∉ (after maxSessions es).stopped ∧
        ∀ k', (after maxSessions es).sessions.lookup k' = some o → k' = k) ∧
      ((after maxSessions es).betweenConnections = true ∨ (after maxSessions es).StoppedAfterwards →
        (after maxSessions es).stopped.Perm (List.range (after maxSessions es).entered)) := by
  have hs := coherent_after maxSessions es
  have haccounted := hs.accounted
  refine ⟨haccounted.nodup, fun o => ⟨haccounted.all o, ?_⟩, ?_, ?_⟩
  · rintro (ho | ⟨k, hk⟩)
    · exact haccounted.known o ho
    · exact (haccounted.held k o hk).1
  · intro k o hk
    exact ⟨(haccounted.held k o hk).2, fun k' hk' => haccounted.single k' k o hk' hk⟩
  · intro h
    exact haccounted.all_stopped (hs.sessions_empty h)

/-- **A call of `stop` that has returned ends the service**, unless it looked for the connection while `run`
waited for one: from then on `run` waits for no connection, and has none but the one the call closed. The
exception is real: after such a call `run` may serve a new connection. -/
theorem stop_ends_service (maxSessions : ℤ) :
    (∀ (es es' : List (Event κ)) (c : StopCall κ) (found : Found), c ∈ (after maxSessions es).calls →
      c.place = .returned found → found ≠ .nothing true →
        (after maxSessions (es ++ es')).runConnecting = false ∧
          ∀ number, (after maxSessions (es ++ es')).websocket = some number → found = .connection number) ∧
      ∃ es : List (Event κ), (after maxSessions es).calls = [⟨.returned (.nothing true), false⟩] ∧
        (after maxSessions es).run = .serving .idle ∧ (after maxSessions es).websocket = some 0 := by
  refine ⟨fun es es' c found hc hplace hfound => ?_, [.loop, .stop, .connected true], rfl, rfl, rfl⟩
  have hkept := (coherent_after maxSessions es).calls c hc
  have hseen := (hkept.seen.step ((effect_after maxSessions es es').quiet hkept.stopping))
  rw [hplace] at hseen
  cases found with
  | connection number => exact ⟨hseen.1, fun m hm => congrArg Found.connection (Option.some.inj (hseen.2 m hm))⟩
  | nothing connecting =>
    cases connecting with
    | true => exact absurd rfl hfound
    | false => exact ⟨hseen.1, fun m hm => by cases hseen.2 m hm⟩

-- The wait for the connection to close is over, and the service at its end.
example : ((after 1 [.loop, .connected true, .stop, .stopResumed 0 false] : Service ℕ).calls.map StopCall.place) =
    [.returned (.connection 0)] := rfl

/-- **How `run` tries again**: since the last connection it has waited 1, 2, 4, 8 and 16 seconds and then 20
each time, and once `stop` has been called it begins no further attempt. -/
theorem reconnects (maxSessions : ℤ) (es es' : List (Event κ)) :
    (after maxSessions es).waits = (List.range (after maxSessions es).waits.length).map (fun j => min (2 ^ j) 20) ∧
      ((after maxSessions es).stopping = true →
        (after maxSessions (es ++ es')).stopping = true ∧
          (after maxSessions (es ++ es')).attempts = (after maxSessions es).attempts) := by
  have heffect := effect_after maxSessions es es'
  exact ⟨(coherent_after maxSessions es).waited.waits, fun h => ⟨heffect.stopping h, heffect.attempts h⟩⟩

end Service

end SenseVoice.Bridge.Loop
