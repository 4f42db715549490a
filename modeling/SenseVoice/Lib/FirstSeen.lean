import Mathlib.Data.List.Induction

/-!
# The first of each kind

A stream of things some of which are the same; of those the first is kept. `same` is symmetric and transitive; a thing
need not be the same as itself, and is then kept each time.

Results:
* `pairwise_firstSeen`, `exists_firstSeen`, `mem_of_mem_firstSeen`: no two that are kept are the same, and each thing is
  the same as one that is kept;
* **`length_firstSeen_eq`**: streams of the same things keep equally many.
-/

namespace SenseVoice.Lib.FirstSeen

variable {α : Type} (same : α → α → Bool)

/-- The new thing, if none of those seen is the same. -/
def addNew (seen : List α) (x : α) : List α := if seen.any (same · x) then seen else seen ++ [x]

/-- The first of each kind, in order. -/
def firstSeen (l : List α) : List α := l.foldl (addNew same) []

variable {same} {seen l : List α} {x y : α}

theorem firstSeen_concat (l : List α) (x : α) : firstSeen same (l ++ [x]) = addNew same (firstSeen same l) x := by
  unfold firstSeen
  rw [List.foldl_append]
  rfl

theorem mem_addNew (h : y ∈ addNew same seen x) : y ∈ seen ∨ y = x := by
  unfold addNew at h
  split at h
  · exact Or.inl h
  · rcases List.mem_append.mp h with hold | hnew
    · exact Or.inl hold
    · exact Or.inr (List.mem_singleton.mp hnew)

theorem mem_addNew_of_mem (h : y ∈ seen) : y ∈ addNew same seen x := by
  unfold addNew
  split
  · exact h
  · exact List.mem_append_left _ h

theorem mem_of_mem_firstSeen (h : x ∈ firstSeen same l) : x ∈ l := by
  induction l using List.reverseRecOn with
  | nil => exact h
  | append_singleton l y ih =>
    rw [firstSeen_concat] at h
    rcases mem_addNew h with hold | rfl
    · exact List.mem_append_left _ (ih hold)
    · exact List.mem_append_right _ List.mem_cons_self

/-- Each thing that is the same as itself is the same as one that is kept. -/
theorem exists_firstSeen (hx : x ∈ l) (hself : same x x = true) : ∃ y ∈ firstSeen same l, same y x = true := by
  induction l using List.reverseRecOn with
  | nil => exact absurd hx List.not_mem_nil
  | append_singleton l z ih =>
    rw [firstSeen_concat]
    rcases List.mem_append.mp hx with hold | hnew
    · obtain ⟨y, hy, hsame⟩ := ih hold
      exact ⟨y, mem_addNew_of_mem hy, hsame⟩
    · obtain rfl := List.mem_singleton.mp hnew
      unfold addNew
      by_cases hany : (firstSeen same l).any (same · x) = true
      · rw [if_pos hany]
        exact List.any_eq_true.mp hany
      · rw [if_neg hany]
        exact ⟨x, List.mem_append_right _ List.mem_cons_self, hself⟩

/-- No two that are kept are the same. -/
theorem pairwise_firstSeen (same : α → α → Bool) (l : List α) :
    (firstSeen same l).Pairwise fun x y => same x y = false := by
  induction l using List.reverseRecOn with
  | nil => exact List.Pairwise.nil
  | append_singleton l x ih =>
    rw [firstSeen_concat]
    unfold addNew
    by_cases hany : (firstSeen same l).any (same · x) = true
    · rw [if_pos hany]
      exact ih
    · rw [if_neg hany]
      refine List.pairwise_append.mpr ⟨ih, List.pairwise_singleton _ _, fun y hy z hz => ?_⟩
      rw [List.mem_singleton.mp hz]
      exact Bool.eq_false_iff.mpr fun hsame => hany (List.any_eq_true.mpr ⟨y, hy, hsame⟩)

/-! ## How many are kept -/

/-- Different elements that each have a partner of their own in the other list. -/
theorem length_le_of_partner {l m : List α} {R : α → α → Prop}
    (hdiff : l.Pairwise fun x y => ∀ z, R x z → ¬ R y z) (hpartner : ∀ x ∈ l, ∃ z ∈ m, R x z) :
    l.length ≤ m.length := by
  induction l generalizing m with
  | nil => exact Nat.zero_le _
  | cons x l ih =>
    rw [List.pairwise_cons] at hdiff
    obtain ⟨z, hz, hxz⟩ := hpartner x List.mem_cons_self
    obtain ⟨before, after, rfl⟩ := List.append_of_mem hz
    have hrest : l.length ≤ (before ++ after).length := by
      refine ih hdiff.2 fun y hy => ?_
      obtain ⟨w, hw, hyw⟩ := hpartner y (List.mem_cons_of_mem _ hy)
      have hne : w ≠ z := by
        rintro rfl
        exact hdiff.1 y hy w hxz hyw
      refine ⟨w, ?_, hyw⟩
      simp only [List.mem_append, List.mem_cons] at hw ⊢
      tauto
    simp only [List.length_append, List.length_cons] at hrest ⊢
    omega

/-- **Streams of the same things keep equally many.** -/
theorem length_firstSeen_eq {l m : List α} (hsymm : ∀ x y, same x y = true → same y x = true)
    (htrans : ∀ x y z, same x y = true → same y z = true → same x z = true)
    (hl : ∀ x ∈ l, ∃ y ∈ m, same x y = true) (hm : ∀ x ∈ m, ∃ y ∈ l, same x y = true) :
    (firstSeen same l).length = (firstSeen same m).length := by
  have hle : ∀ l m : List α, (∀ x ∈ l, ∃ y ∈ m, same x y = true) →
      (firstSeen same l).length ≤ (firstSeen same m).length := by
    intro l m h
    refine length_le_of_partner (R := fun x y => same x y = true) ?_ fun x hx => ?_
    · refine (pairwise_firstSeen same l).imp fun {x y} hdiff z hxz hyz => ?_
      have hsame := htrans x z y hxz (hsymm y z hyz)
      rw [hdiff] at hsame
      exact Bool.false_ne_true hsame
    · obtain ⟨y, hy, hxy⟩ := h x (mem_of_mem_firstSeen hx)
      obtain ⟨z, hz, hzy⟩ := exists_firstSeen hy (htrans y x y (hsymm x y hxy) hxy)
      exact ⟨z, hz, htrans x y z hxy (hsymm z y hzy)⟩
  exact Nat.le_antisymm (hle l m hl) (hle m l hm)

end SenseVoice.Lib.FirstSeen
