import Mathlib.Data.List.Pairwise

/-!
# First-in first-out channels

A channel is the log of all messages sent on it, oldest first, and the number `n` of those received:
`received log n` are the first `n`, `pending log n` the others. Sending appends to the log, receiving
moves `n` over `log[n]?`.

`OpensFirst opens about log`: a message that opens a key `k` comes before every other message about
`k`. Several channels that share one log inherit it, so a key is opened on one channel only.

Results:
* `pending_of_next`, `received_of_next`: what receiving one message does;
* `pending_append`, `received_append`: what sending does;
* `OpensFirst.not_opens_pending`, `OpensFirst.not_about_received`: after a message about `k` nothing
  opens `k`, and nothing about `k` was received before the message that opens it;
* `OpensFirst.unique`: at most one message opens a key.
-/

namespace SenseVoice.Lib.Channel

variable {α κ : Type} {log out : List α} {n : Nat} {m : α}

/-- The messages received. -/
def received (log : List α) (n : Nat) : List α := log.take n

/-- The messages sent and not received yet. -/
def pending (log : List α) (n : Nat) : List α := log.drop n

theorem mem_of_pending (h : m ∈ pending log n) : m ∈ log := List.mem_of_mem_drop h

theorem mem_of_received (h : m ∈ received log n) : m ∈ log := List.mem_of_mem_take h

theorem pending_of_next (h : log[n]? = some m) : pending log n = m :: pending log (n + 1) := by
  obtain ⟨hlt, rfl⟩ := List.getElem?_eq_some_iff.mp h
  exact List.drop_eq_getElem_cons hlt

theorem received_of_next (h : log[n]? = some m) :
    received log (n + 1) = received log n ++ [m] := by
  unfold received
  rw [List.take_add_one, h]
  rfl

theorem succ_le_of_next (h : log[n]? = some m) : n + 1 ≤ log.length := by
  obtain ⟨hlt, -⟩ := List.getElem?_eq_some_iff.mp h
  exact hlt

theorem pending_append (h : n ≤ log.length) : pending (log ++ out) n = pending log n ++ out :=
  List.drop_append_of_le_length h

theorem received_append (h : n ≤ log.length) : received (log ++ out) n = received log n :=
  List.take_append_of_le_length h

/-! ## Messages that open a key -/

/-- A message that opens `k` comes before every other message about `k`. -/
def OpensFirst (opens about : α → κ → Prop) (log : List α) : Prop :=
  log.Pairwise fun p q => ∀ k, opens q k → ¬ about p k

namespace OpensFirst

variable {opens about : α → κ → Prop} {k : κ}

/-- Nothing after a message about `k` opens `k`. -/
theorem not_opens_pending (h : OpensFirst opens about log) (hm : log[n]? = some m)
    (hk : about m k) : ∀ q ∈ pending log (n + 1), ¬ opens q k := by
  intro q hq ho
  have hpair : (pending log n).Pairwise fun p q => ∀ k, opens q k → ¬ about p k := h.drop
  rw [pending_of_next hm, List.pairwise_cons] at hpair
  exact hpair.1 q hq k ho hk

/-- Nothing about `k` was received before the message that opens it. -/
theorem not_about_received (h : OpensFirst opens about log) (hm : m ∈ pending log n)
    (hk : opens m k) : ∀ p ∈ received log n, ¬ about p k := by
  intro p hp
  have hpair : (received log n ++ pending log n).Pairwise fun p q => ∀ k, opens q k → ¬ about p k := by
    unfold received pending
    rwa [List.take_append_drop]
  exact (List.pairwise_append.mp hpair).2.2 p hp m hm k hk

/-- At most one message opens a key. -/
theorem unique (h : OpensFirst opens about log) (hoa : ∀ m k, opens m k → about m k) {p q : α}
    (hp : p ∈ log) (hq : q ∈ log) (hpk : opens p k) (hqk : opens q k) : p = q := by
  by_contra hne
  have hsymm : Std.Symm fun p q : α => ∀ k, opens p k → ¬ opens q k :=
    ⟨fun _ _ hr k hq hp => hr k hp hq⟩
  have hpair : log.Pairwise fun p q => ∀ k, opens p k → ¬ opens q k :=
    h.imp fun hr k hp hq => hr k hq (hoa _ k hp)
  exact hpair.forall hp hq hne k hpk hqk

end OpensFirst

end SenseVoice.Lib.Channel
