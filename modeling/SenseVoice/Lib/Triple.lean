import SenseVoice.Lib.Raising

/-!
# Pre- and postconditions of computations that may raise

`Triple P m Q E`: from a state with `P`, `m` either returns, with `Q` of its value and its last state, or
raises, with `E` of the exception and the last state.

Results: one rule for each construct, the loop over a list included (`Triple.forM`), and the rule for two
triples of one computation (`Triple.and`).
-/

namespace SenseVoice.Lib

variable {ε σ α β : Type}

/-- What is claimed of an ending: `Q` of a return, `E` of an exception. -/
def Ended.Meets (Q : α → σ → Prop) (E : ε → σ → Prop) (r : Ended ε σ α) : Prop :=
  match r with
  | (.ok a, t) => Q a t
  | (.error e, t) => E e t

@[simp] theorem meets_ok {Q : α → σ → Prop} {E : ε → σ → Prop} {a : α} {t : σ} :
    Ended.Meets Q E (.ok a, t) ↔ Q a t := Iff.rfl

@[simp] theorem meets_error {Q : α → σ → Prop} {E : ε → σ → Prop} {e : ε} {t : σ} :
    Ended.Meets Q E ((.error e, t) : Ended ε σ α) ↔ E e t := Iff.rfl

theorem Ended.Meets.mono {Q Q' : α → σ → Prop} {E E' : ε → σ → Prop} {r : Ended ε σ α}
    (h : r.Meets Q E) (hQ : ∀ a t, Q a t → Q' a t) (hE : ∀ e t, E e t → E' e t) : r.Meets Q' E' := by
  obtain ⟨_ | _, t⟩ := r
  · exact hE _ _ h
  · exact hQ _ _ h

/-- What is claimed of both endings is claimed of the last state. -/
theorem meets_const {P : σ → Prop} {r : Ended ε σ α} : r.Meets (fun _ => P) (fun _ => P) ↔ P r.2 := by
  obtain ⟨_ | _, t⟩ := r <;> exact Iff.rfl

/-- From `P`, `m` returns with `Q` or raises with `E`. -/
def Triple (P : σ → Prop) (m : ExceptT ε (StateM σ) α) (Q : α → σ → Prop) (E : ε → σ → Prop) : Prop :=
  ∀ s, P s → (outcome m s).Meets Q E

namespace Triple

variable {P P' : σ → Prop} {m : ExceptT ε (StateM σ) α} {f : α → ExceptT ε (StateM σ) β}
  {Q Q' : α → σ → Prop} {R : β → σ → Prop} {E E' : ε → σ → Prop}

theorem mono (h : Triple P m Q E) (hP : ∀ s, P' s → P s) (hQ : ∀ a t, Q a t → Q' a t)
    (hE : ∀ e t, E e t → E' e t) : Triple P' m Q' E' :=
  fun s hs => (h s (hP s hs)).mono hQ hE

theorem and (h : Triple P m Q E) (h' : Triple P' m Q' E') :
    Triple (fun s => P s ∧ P' s) m (fun a t => Q a t ∧ Q' a t) fun e t => E e t ∧ E' e t := by
  intro s hs
  have hleft := h s hs.1
  have hright := h' s hs.2
  revert hleft hright
  cases outcome m s with
  | mk r t => cases r <;> exact And.intro

theorem pure {a : α} (h : ∀ s, P s → Q a s) : Triple P (Pure.pure a : ExceptT ε (StateM σ) α) Q E :=
  fun s hs => h s hs

theorem throw {e : ε} (h : ∀ s, P s → E e s) : Triple P (throw e : ExceptT ε (StateM σ) α) Q E :=
  fun s hs => h s hs

theorem modify {g : σ → σ} {Q : PUnit → σ → Prop} (h : ∀ s, P s → Q ⟨⟩ (g s)) :
    Triple P (modify g : ExceptT ε (StateM σ) PUnit) Q E :=
  fun s hs => h s hs

theorem bind (hm : Triple P m Q E) (hf : ∀ a, Triple (Q a) (f a) R E) : Triple P (m >>= f) R E := by
  intro s hs
  have h := hm s hs
  rw [outcome_bind]
  revert h
  cases outcome m s with
  | mk r t =>
    cases r with
    | ok a => exact hf a t
    | error e => exact id

/-- What is read is a state with `P`. -/
theorem bind_get {g : σ → ExceptT ε (StateM σ) β} (h : ∀ s, P s → (outcome (g s) s).Meets R E) :
    Triple P (get >>= g) R E := by
  intro s hs
  rw [outcome_bind, outcome_get]
  exact h s hs

/-- A loop over a list keeps what each turn keeps. -/
theorem forM {ι : Type} {body : ι → ExceptT ε (StateM σ) PUnit} (is : List ι)
    (h : ∀ i ∈ is, Triple P (body i) (fun _ => P) E) : Triple P (is.forM body) (fun _ => P) E := by
  induction is with
  | nil => exact pure fun _ hs => hs
  | cons i is ih =>
    exact bind (h i List.mem_cons_self) fun _ => ih fun j hj => h j (List.mem_cons_of_mem i hj)

end Triple

end SenseVoice.Lib
