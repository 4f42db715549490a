import Mathlib.Data.List.DropRight
import SenseVoice.Lib.Run

/-!
# A bounded queue that drops its oldest element

A queue of at most `n` elements between a producer and a consumer. An element that finds it full takes the place of
the oldest one. The queue may be cleared at any time. A producer puts several elements in one step.

* `Line` is the queue with its history: all that was put, numbered by position, and what was taken with its
  position. `front` is the position of the oldest element in the queue.

Results:
* `foldl_putOldest`: a batch leaves the last `n` of what was there and what came;
* `good_step`, `good_final`: the queue is the end of what was put, and what was taken was taken in order, each
  position once; `taken_sublist` is the consequence for the elements;
* **`accounted`**: in every run an element is in the queue, or was taken, or went in a step that cleared the queue
  or after which at least `n` newer ones had been put.
-/

namespace SenseVoice.Lib.DropOldest

variable {α : Type}

/-- One element, when there is room and when there is none. -/
def putOldest (n : ℕ) (queue : List α) (a : α) : List α :=
  if queue.length < n then queue ++ [a] else queue.tail ++ [a]

/-- A queue with its history. -/
structure Line (α : Type) where
  queue : List α := []
  put : List α := []
  taken : List (ℕ × α) := []

/-- What the two sides do. -/
inductive Op (α : Type) where
  | put (batch : List α)
  | take
  | clear

namespace Line

/-- The position of the oldest element in the queue. -/
def front (l : Line α) : ℕ := l.put.length - l.queue.length

/-- The element at the position is in the queue. -/
def Holds (l : Line α) (i : ℕ) : Prop := l.front ≤ i ∧ i < l.put.length

/-- One step. -/
def step (n : ℕ) (l : Line α) (op : Op α) : Option (Line α) :=
  match op with
  | .put batch => some { l with queue := batch.foldl (putOldest n) l.queue, put := l.put ++ batch }
  | .take =>
    match l.queue with
    | [] => none
    | a :: rest => some { l with queue := rest, taken := l.taken ++ [(l.front, a)] }
  | .clear => some { l with queue := [] }

end Line

/-! ## One batch -/

variable {n : ℕ}

/-- One element leaves the last `n`. -/
theorem putOldest_eq (hn : 0 < n) {queue : List α} (h : queue.length ≤ n) (a : α) :
    putOldest n queue a = (queue ++ [a]).rtake n := by
  unfold putOldest List.rtake
  split
  · rename_i hroom
    have hzero : (queue ++ [a]).length - n = 0 := by
      rw [List.length_append, List.length_singleton]
      omega
    rw [hzero, List.drop_zero]
  · rename_i hfull
    have hone : (queue ++ [a]).length - n = 1 := by
      rw [List.length_append, List.length_singleton]
      omega
    cases queue with
    | nil => exact absurd hn (by simpa using hfull)
    | cons b queue => rw [hone]; rfl

theorem length_rtake_le (n : ℕ) (l : List α) : (l.rtake n).length ≤ n := by
  unfold List.rtake
  rw [List.length_drop]
  omega

/-- The last `n` of a list that only lost what is older. -/
theorem rtake_append_rtake (n : ℕ) (l m : List α) : (l.rtake n ++ m).rtake n = (l ++ m).rtake n := by
  unfold List.rtake
  rw [← List.drop_append_of_le_length (Nat.sub_le _ _), List.drop_drop, List.length_drop]
  congr 1
  simp only [List.length_append]
  omega

/-- **A batch leaves the last `n`.** -/
theorem foldl_putOldest (hn : 0 < n) (batch : List α) {queue : List α} (h : queue.length ≤ n) :
    batch.foldl (putOldest n) queue = (queue ++ batch).rtake n := by
  induction batch generalizing queue with
  | nil =>
    unfold List.rtake
    rw [List.append_nil, Nat.sub_eq_zero_of_le h]
    rfl
  | cons a batch ih =>
    rw [List.foldl_cons, putOldest_eq hn h, ih (length_rtake_le _ _), rtake_append_rtake, List.append_assoc,
      List.singleton_append]

/-! ## The history -/

/-- The queue is the end of what was put and never too long; what was taken stood before it, in order. -/
structure Good (n : ℕ) (l : Line α) : Prop where
  suffix : l.queue <:+ l.put
  bounded : l.queue.length ≤ n
  position : ∀ x ∈ l.taken, x.1 < l.front ∧ l.put[x.1]? = some x.2
  order : l.taken.Pairwise fun x y => x.1 < y.1
  sublist : (l.taken.map Prod.snd).Sublist (l.put.take l.front)

theorem good_init : Good n ({} : Line α) where
  suffix := List.suffix_rfl
  bounded := Nat.zero_le n
  position := fun _ h => absurd h List.not_mem_nil
  order := List.Pairwise.nil
  sublist := List.Sublist.refl []

variable {l m : Line α}

theorem Good.length_le (h : Good n l) : l.queue.length ≤ l.put.length := h.suffix.length_le

/-- The queue as a part of what was put. -/
theorem Good.queue_eq (h : Good n l) : l.queue = l.put.drop l.front := List.suffix_iff_eq_drop.mp h.suffix

/-- The history of what was taken stays good while the front goes on and more is put. -/
theorem Good.later (h : Good n l) {put' : List α} {front' : ℕ} (hput : l.put <+: put') (hfront : l.front ≤ front') :
    (∀ x ∈ l.taken, x.1 < front' ∧ put'[x.1]? = some x.2) ∧
      (l.taken.map Prod.snd).Sublist (put'.take front') := by
  obtain ⟨rest, rfl⟩ := hput
  constructor
  · intro x hx
    obtain ⟨hlt, hat⟩ := h.position x hx
    refine ⟨Nat.lt_of_lt_of_le hlt hfront, ?_⟩
    rw [List.getElem?_append_left (List.getElem?_eq_some_iff.mp hat).1]
    exact hat
  · have hfits : l.front ≤ l.put.length := Nat.sub_le _ _
    have htake : l.put.take l.front = (l.put ++ rest).take l.front := (List.take_append_of_le_length hfits).symm
    refine h.sublist.trans ?_
    rw [htake]
    exact List.take_sublist_take_left hfront

theorem good_put (hn : 0 < n) (h : Good n l) (batch : List α) :
    Good n { l with queue := batch.foldl (putOldest n) l.queue, put := l.put ++ batch } := by
  rw [foldl_putOldest hn batch h.bounded]
  have hsuffix : (l.queue ++ batch).rtake n <:+ l.put ++ batch :=
    (List.drop_suffix _ _).trans (List.suffix_append_self_iff.mpr h.suffix)
  have hfront : l.front ≤ (l.put ++ batch).length - ((l.queue ++ batch).rtake n).length := by
    have hle : ((l.queue ++ batch).rtake n).length ≤ (l.queue ++ batch).length := (List.drop_suffix _ _).length_le
    have hfits := h.length_le
    rw [List.length_append] at hle
    unfold Line.front
    rw [List.length_append]
    omega
  obtain ⟨hposition, hsublist⟩ := h.later (List.prefix_append l.put batch) hfront
  exact ⟨hsuffix, length_rtake_le _ _, hposition, h.order, hsublist⟩

theorem good_take (h : Good n l) {a : α} {rest : List α} (hqueue : l.queue = a :: rest) :
    Good n { l with queue := rest, taken := l.taken ++ [(l.front, a)] } := by
  have hbounded := h.bounded
  have hfits := h.length_le
  rw [hqueue, List.length_cons] at hbounded hfits
  have hfront : l.put.length - rest.length = l.front + 1 := by
    unfold Line.front
    rw [hqueue, List.length_cons]
    omega
  have hat : l.put[l.front]? = some a := by
    have hdrop := h.queue_eq
    rw [hqueue] at hdrop
    have hhead : (l.put.drop l.front)[0]? = some a := by
      rw [← hdrop]
      rfl
    rwa [List.getElem?_drop, Nat.add_zero] at hhead
  obtain ⟨hposition, -⟩ := h.later (List.prefix_refl l.put) (Nat.le_succ l.front)
  refine ⟨(List.suffix_cons a rest).trans (hqueue ▸ h.suffix), Nat.le_of_succ_le hbounded, ?_, ?_, ?_⟩
  · intro x hx
    change x.1 < l.put.length - rest.length ∧ _
    rw [hfront]
    rcases List.mem_append.mp hx with hx | hx
    · exact hposition x hx
    · rw [List.mem_singleton.mp hx]
      exact ⟨Nat.lt_succ_self _, hat⟩
  · refine List.pairwise_append.mpr ⟨h.order, List.pairwise_singleton _ _, fun x hx y hy => ?_⟩
    rw [List.mem_singleton.mp hy]
    exact (h.position x hx).1
  · change List.Sublist _ (l.put.take (l.put.length - rest.length))
    rw [hfront, List.take_add_one, hat, List.map_append]
    exact h.sublist.append (List.Sublist.refl [a])

theorem good_clear (h : Good n l) : Good n { l with queue := [] } := by
  obtain ⟨hposition, hsublist⟩ := h.later (List.prefix_refl l.put) (Nat.sub_le l.put.length l.queue.length)
  exact ⟨List.nil_suffix, Nat.zero_le n, hposition, h.order, hsublist⟩

/-- **One step** keeps the history good. -/
theorem good_step (hn : 0 < n) (h : Good n l) {op : Op α} (hstep : l.step n op = some m) : Good n m := by
  cases op with
  | put batch =>
    obtain rfl := Option.some.inj hstep
    exact good_put hn h batch
  | take =>
    unfold Line.step at hstep
    dsimp only at hstep
    split at hstep
    · exact absurd hstep (by simp)
    · rename_i a rest hqueue
      obtain rfl := Option.some.inj hstep
      exact good_take h hqueue
  | clear =>
    obtain rfl := Option.some.inj hstep
    exact good_clear h

theorem good_final (hn : 0 < n) (ops : List (Op α)) : Good n (Run.final (Line.step n) {} ops) :=
  Run.final_of_step (fun _ _ _ h hstep => good_step hn h hstep) good_init ops

/-- What was taken is a part of what was put, in order. -/
theorem taken_sublist (h : Good n l) : (l.taken.map Prod.snd).Sublist l.put :=
  h.sublist.trans (List.take_sublist _ _)

/-! ## What is lost -/

/-- The element at the position was in the queue or is being put, and the step clears the queue, or at least `n`
newer elements have been put with it. -/
def Loses (n : ℕ) (i : ℕ) (x : Run.Taken (Line α) (Op α)) : Prop :=
  x.before.front ≤ i ∧ i < x.after.put.length ∧
    (x.event = .clear ∨ (∃ batch, x.event = .put batch) ∧ i + n < x.after.put.length)

/-- The element is in the queue, or was taken. -/
def Line.Has (l : Line α) (i : ℕ) : Prop := l.Holds i ∨ ∃ a, (i, a) ∈ l.taken

theorem has_put (hn : 0 < n) (h : Good n l) (batch : List α) {i : ℕ}
    (hi : i < (l.put ++ batch).length) (hfront : l.front ≤ i) :
    ({ l with queue := batch.foldl (putOldest n) l.queue, put := l.put ++ batch } : Line α).Holds i ∨
      i + n < (l.put ++ batch).length := by
  have hlength : (batch.foldl (putOldest n) l.queue).length = min n (l.queue.length + batch.length) := by
    rw [foldl_putOldest hn batch h.bounded]
    unfold List.rtake
    rw [List.length_drop, List.length_append]
    omega
  have hfits := h.length_le
  unfold Line.Holds Line.front at *
  dsimp only
  rw [hlength, List.length_append] at *
  omega

/-- **One step**: an element that was in the queue, or comes, is in the queue or taken then, or lost with it. -/
theorem accounted_step (hn : 0 < n) (h : Good n l) {op : Op α} (hstep : l.step n op = some m) {i : ℕ}
    (hi : i < m.put.length) (hbefore : l.Has i ∨ l.put.length ≤ i) : m.Has i ∨ Loses n i ⟨l, op, m⟩ := by
  have hfits := h.length_le
  have hfront : l.front ≤ i ∨ ∃ a, (i, a) ∈ l.taken := by
    rcases hbefore with (hqueued | htaken) | hnew
    · exact Or.inl hqueued.1
    · exact Or.inr htaken
    · exact Or.inl (Nat.le_trans (Nat.sub_le _ _) hnew)
  cases op with
  | put batch =>
    obtain rfl := Option.some.inj hstep
    rcases hfront with hfront | htaken
    · rcases has_put hn h batch hi hfront with hqueued | hnewer
      · exact Or.inl (Or.inl hqueued)
      · exact Or.inr ⟨hfront, hi, Or.inr ⟨⟨batch, rfl⟩, hnewer⟩⟩
    · exact Or.inl (Or.inr htaken)
  | take =>
    unfold Line.step at hstep
    dsimp only at hstep
    split at hstep
    · exact absurd hstep (by simp)
    · rename_i a rest hqueue
      obtain rfl := Option.some.inj hstep
      left
      rcases hfront with hfront | ⟨b, hb⟩
      · by_cases hfirst : i = l.front
        · exact Or.inr ⟨a, List.mem_append_right _ (by rw [hfirst]; exact List.mem_cons_self)⟩
        · refine Or.inl ⟨?_, hi⟩
          rw [hqueue, List.length_cons] at hfits
          unfold Line.front at *
          rw [hqueue, List.length_cons] at *
          dsimp only
          omega
      · exact Or.inr ⟨b, List.mem_append_left _ hb⟩
  | clear =>
    obtain rfl := Option.some.inj hstep
    rcases hfront with hfront | htaken
    · exact Or.inr ⟨hfront, hi, Or.inl rfl⟩
    · exact Or.inl (Or.inr htaken)

/-- **Every element is accounted for**: it is in the queue, or was taken, or a step of the run lost it. -/
theorem accounted (hn : 0 < n) (ops : List (Op α)) {i : ℕ} (hi : i < (Run.final (Line.step n) {} ops).put.length) :
    (Run.final (Line.step n) {} ops).Has i ∨ ∃ x ∈ Run.trace (Line.step n) {} ops, Loses n i x := by
  suffices h : Good n (Run.final (Line.step n) {} ops) ∧
      ∀ i < (Run.final (Line.step n) ({} : Line α) ops).put.length, (Run.final (Line.step n) {} ops).Has i ∨
        ∃ x ∈ Run.trace (Line.step n) {} ops, Loses n i x from h.2 i hi
  refine Run.history_final (I := fun past l => Good n l ∧
    ∀ i < l.put.length, l.Has i ∨ ∃ x ∈ past, Loses n i x) ⟨good_init, fun i hi => absurd hi (Nat.not_lt_zero i)⟩ ?_ ops
  rintro past l op m ⟨hgood, hall⟩ hstep
  refine ⟨good_step hn hgood hstep, fun i hi => ?_⟩
  have hlater : l.Has i ∨ l.put.length ≤ i → m.Has i ∨ ∃ x ∈ past ++ [⟨l, op, m⟩], Loses n i x := by
    intro hbefore
    rcases accounted_step hn hgood hstep hi hbefore with hhas | hlost
    · exact Or.inl hhas
    · exact Or.inr ⟨_, List.mem_append_right _ List.mem_cons_self, hlost⟩
  rcases Nat.lt_or_ge i l.put.length with hold | hnew
  · rcases hall i hold with hhas | ⟨x, hx, hlost⟩
    · exact hlater (Or.inl hhas)
    · exact Or.inr ⟨x, List.mem_append_left _ hx, hlost⟩
  · exact hlater (Or.inr hnew)

end SenseVoice.Lib.DropOldest
