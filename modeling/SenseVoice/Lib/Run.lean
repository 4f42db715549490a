import Mathlib.Data.List.Basic

/-!
# Runs of a partial step function

A system is a function `step : σ → ε → Option σ`: what event `e` does in state `s`, `none` when it
cannot happen there. A list of events is a schedule; an event that cannot happen when its turn comes
is passed over, so every list of events is the schedule of a run.

* `final`: the state a schedule ends in;
* `trace`: the steps taken, each with the state before, the event and the state after;
* `states`: every state passed through, the first one included.

Results, each the induction over schedules done once:
* `forall_states`, `before_of_trace`: a property of a state, kept by every step, along a whole run;
* `forall_history`, `history_final`: a property of the state **and of the steps taken so far**, before
  every step and at the end;
* `pairwise_states`, `step_of_pairwise`: what holds between earlier and later states;
* `trace_map`: a run of a system is a run of another one that simulates its steps;
* `states_iff_trace`: when each step of a run from a good state ends in a good state exactly if the
  step is allowed, the run stays in good states exactly if all its steps are allowed.
-/

namespace SenseVoice.Lib.Run

/-- One step of a run. -/
structure Taken (σ ε : Type) where
  before : σ
  event : ε
  after : σ

variable {σ ε : Type} (step : σ → ε → Option σ)

/-- The state a schedule ends in. -/
def final : σ → List ε → σ
  | s, [] => s
  | s, e :: es =>
    match step s e with
    | some t => final t es
    | none => final s es

/-- The steps taken, oldest first. -/
def trace : σ → List ε → List (Taken σ ε)
  | _, [] => []
  | s, e :: es =>
    match step s e with
    | some t => ⟨s, e, t⟩ :: trace t es
    | none => trace s es

/-- The states passed through, the first one included. -/
def states (s : σ) (es : List ε) : List σ := s :: (trace step s es).map Taken.after

variable {step}

theorem trace_skip {s : σ} {e : ε} (h : step s e = none) (es : List ε) :
    trace step s (e :: es) = trace step s es := by
  simp only [trace, h]

theorem trace_take {s t : σ} {e : ε} (h : step s e = some t) (es : List ε) :
    trace step s (e :: es) = ⟨s, e, t⟩ :: trace step t es := by
  simp only [trace, h]

theorem states_skip {s : σ} {e : ε} (h : step s e = none) (es : List ε) :
    states step s (e :: es) = states step s es := by
  unfold states
  rw [trace_skip h]

theorem states_take {s t : σ} {e : ε} (h : step s e = some t) (es : List ε) :
    states step s (e :: es) = s :: states step t es := by
  unfold states
  rw [trace_take h, List.map_cons]

theorem trace_append (s : σ) (as bs : List ε) :
    trace step s (as ++ bs) = trace step s as ++ trace step (final step s as) bs := by
  induction as generalizing s with
  | nil => rfl
  | cons e as ih =>
    simp only [List.cons_append, trace, final]
    cases step s e with
    | none => exact ih s
    | some t => simp only [ih t, List.cons_append]

theorem final_append (s : σ) (as bs : List ε) : final step s (as ++ bs) = final step (final step s as) bs := by
  induction as generalizing s with
  | nil => rfl
  | cons e as ih =>
    simp only [List.cons_append, final]
    cases step s e with
    | none => exact ih s
    | some t => exact ih t

/-- A step at the end of a schedule. -/
theorem final_concat {s t : σ} {es : List ε} {e : ε} (h : step (final step s es) e = some t) :
    final step s (es ++ [e]) = t := by
  induction es generalizing s with
  | nil =>
    have hs : step s e = some t := h
    simp only [List.nil_append, final, hs]
  | cons d es ih =>
    simp only [List.cons_append, final] at h ⊢
    cases hd : step s d with
    | none =>
      rw [hd] at h
      exact ih h
    | some u =>
      rw [hd] at h
      exact ih h

theorem final_mem_states (s : σ) (es : List ε) : final step s es ∈ states step s es := by
  induction es generalizing s with
  | nil => exact List.mem_cons_self
  | cons e es ih =>
    cases he : step s e with
    | none =>
      rw [states_skip he]
      simp only [final, he]
      exact ih s
    | some t =>
      rw [states_take he]
      simp only [final, he]
      exact List.mem_cons_of_mem _ (ih t)

/-- A step of a run starts in a state of the run, and is a step of the system. -/
theorem mem_trace {s : σ} {es : List ε} {x : Taken σ ε} (h : x ∈ trace step s es) :
    (∃ as bs, es = as ++ x.event :: bs ∧ final step s as = x.before) ∧
      step x.before x.event = some x.after := by
  induction es generalizing s with
  | nil => exact absurd h List.not_mem_nil
  | cons e es ih =>
    cases hs : step s e with
    | none =>
      rw [trace_skip hs] at h
      obtain ⟨⟨as, bs, rfl, hf⟩, hx⟩ := ih h
      exact ⟨⟨e :: as, bs, rfl, by simp only [final, hs, hf]⟩, hx⟩
    | some t =>
      rw [trace_take hs] at h
      rcases List.mem_cons.mp h with rfl | h
      · exact ⟨⟨[], es, rfl, rfl⟩, hs⟩
      · obtain ⟨⟨as, bs, rfl, hf⟩, hx⟩ := ih h
        exact ⟨⟨e :: as, bs, rfl, by simp only [final, hs, hf]⟩, hx⟩

/-- A run splits at any of its steps. -/
theorem trace_split {s t : σ} (as : List ε) (e : ε) (bs : List ε)
    (h : step (final step s as) e = some t) :
    trace step s (as ++ e :: bs) =
      trace step s as ++ ⟨final step s as, e, t⟩ :: trace step t bs := by
  rw [trace_append, trace_take h]

/-- A step at the end of a schedule is a step of the run. -/
theorem mem_trace_of_step {s t : σ} (as : List ε) (e : ε) (bs : List ε)
    (h : step (final step s as) e = some t) :
    ⟨final step s as, e, t⟩ ∈ trace step s (as ++ e :: bs) := by
  rw [trace_split as e bs h]
  exact List.mem_append_right _ List.mem_cons_self

/-- A property kept by the steps of a run holds in every state of the run. -/
theorem forall_states {P : σ → Prop} {s : σ} {es : List ε} (hs : P s)
    (hstep : ∀ x ∈ trace step s es, P x.before → P x.after) : ∀ t ∈ states step s es, P t := by
  induction es generalizing s with
  | nil => intro t ht; rwa [List.mem_singleton.mp ht]
  | cons e es ih =>
    cases he : step s e with
    | none => rw [states_skip he]; rw [trace_skip he] at hstep; exact ih hs hstep
    | some t =>
      rw [states_take he]
      rw [trace_take he] at hstep
      intro u hu
      rcases List.mem_cons.mp hu with rfl | hu
      · exact hs
      · exact ih (hstep _ List.mem_cons_self hs) (fun x hx => hstep x (List.mem_cons_of_mem _ hx))
          u hu

/-- A property every step keeps holds in the last state of a run. -/
theorem final_of_step {P : σ → Prop} (hstep : ∀ s e t, P s → step s e = some t → P t) {s : σ}
    (hs : P s) (es : List ε) : P (final step s es) :=
  forall_states hs (fun _ hx h => hstep _ _ _ h (mem_trace hx).2) _ (final_mem_states s es)

/-- A property kept by the steps of a run holds before every step of the run. -/
theorem before_of_trace {P : σ → Prop} {s : σ} {es : List ε} (hs : P s)
    (hstep : ∀ x ∈ trace step s es, P x.before → P x.after) :
    ∀ x ∈ trace step s es, P x.before := by
  induction es generalizing s with
  | nil => exact fun _ h => absurd h List.not_mem_nil
  | cons e es ih =>
    cases he : step s e with
    | none => rw [trace_skip he] at hstep ⊢; exact ih hs hstep
    | some t =>
      rw [trace_take he] at hstep ⊢
      intro x hx
      rcases List.mem_cons.mp hx with rfl | hx
      · exact hs
      · exact ih (hstep _ List.mem_cons_self hs) (fun y hy => hstep y (List.mem_cons_of_mem _ hy))
          x hx

/-- What every step of a run keeps, once it holds it holds from then on. -/
theorem pairwise_states {ι : Type} {P : ι → σ → Prop} {s : σ} {es : List ε}
    (hstep : ∀ x ∈ trace step s es, ∀ i, P i x.before → P i x.after) :
    (states step s es).Pairwise fun t u => ∀ i, P i t → P i u := by
  induction es generalizing s with
  | nil => exact List.pairwise_singleton _ _
  | cons e es ih =>
    cases he : step s e with
    | none => rw [states_skip he]; rw [trace_skip he] at hstep; exact ih hstep
    | some t =>
      rw [states_take he, List.pairwise_cons]
      rw [trace_take he] at hstep
      have hrest : ∀ x ∈ trace step t es, ∀ i, P i x.before → P i x.after :=
        fun x hx => hstep x (List.mem_cons_of_mem _ hx)
      refine ⟨fun u hu i hi => ?_, ih hrest⟩
      exact forall_states (hstep _ List.mem_cons_self i hi) (fun x hx => hrest x hx i) u hu

/-- Earlier and later steps are related exactly if at every split the steps before are related to the
step after. -/
theorem pairwise_iff_split {α : Type} {R : α → α → Prop} {l : List α} :
    l.Pairwise R ↔ ∀ pre x post, l = pre ++ x :: post → ∀ y ∈ pre, R y x := by
  constructor
  · rintro h pre x post rfl y hy
    exact (List.pairwise_append.mp h).2.2 y hy x List.mem_cons_self
  · intro h
    induction l with
    | nil => exact List.Pairwise.nil
    | cons a l ih =>
      refine List.pairwise_cons.mpr ⟨fun x hx => ?_, ih fun pre x post hl y hy => ?_⟩
      · obtain ⟨pre, post, rfl⟩ := List.append_of_mem hx
        exact h (a :: pre) x post rfl a List.mem_cons_self
      · exact h (a :: pre) x post (by rw [hl, List.cons_append]) y (List.mem_cons_of_mem _ hy)

/-- A relation between earlier and later states relates the two ends of every step. -/
theorem step_of_pairwise {R : σ → σ → Prop} {s : σ} {es : List ε}
    (h : (states step s es).Pairwise R) : ∀ x ∈ trace step s es, R x.before x.after := by
  induction es generalizing s with
  | nil => exact fun _ hx => absurd hx List.not_mem_nil
  | cons e es ih =>
    cases he : step s e with
    | none => rw [states_skip he] at h; rw [trace_skip he]; exact ih h
    | some t =>
      rw [states_take he, List.pairwise_cons] at h
      rw [trace_take he]
      intro x hx
      rcases List.mem_cons.mp hx with rfl | hx
      · exact h.1 t List.mem_cons_self
      · exact ih h.2 x hx

/-- **Step to run, with the past.** A property of the steps taken so far and the current state,
kept by every step, holds before every step of a run. -/
theorem forall_history {I : List (Taken σ ε) → σ → Prop} {s : σ} (h0 : I [] s)
    (hstep : ∀ past s e t, I past s → step s e = some t → I (past ++ [⟨s, e, t⟩]) t)
    {es : List ε} {pre post : List (Taken σ ε)} {x : Taken σ ε}
    (h : trace step s es = pre ++ x :: post) : I pre x.before := by
  suffices hgen : ∀ (es : List ε) (past : List (Taken σ ε)) (s : σ), I past s →
      ∀ pre post, trace step s es = pre ++ x :: post → I (past ++ pre) x.before by
    simpa using hgen es [] s h0 pre post h
  intro es
  induction es with
  | nil => intro past s _ pre post h; simp [trace] at h
  | cons e es ih =>
    intro past s hI pre post h
    cases he : step s e with
    | none => rw [trace_skip he] at h; exact ih past s hI pre post h
    | some t =>
      rw [trace_take he] at h
      cases pre with
      | nil =>
        obtain ⟨rfl, -⟩ := List.cons.inj h
        simpa using hI
      | cons y pre =>
        rw [List.cons_append] at h
        obtain ⟨rfl, htail⟩ := List.cons.inj h
        have := ih (past ++ [⟨s, e, t⟩]) t (hstep past s e t hI he) pre post htail
        simpa using this

/-- A split of a list at an element, seen from its last element: that is the one, or the split is one
of the list before it. -/
theorem split_concat {α : Type} {past pre post : List α} {x y : α}
    (h : past ++ [y] = pre ++ x :: post) :
    (past = pre ∧ y = x ∧ post = []) ∨ ∃ post', post = post' ++ [y] ∧ past = pre ++ x :: post' := by
  rcases List.eq_nil_or_concat post with rfl | ⟨post', z, rfl⟩
  · obtain ⟨hp, hx⟩ := List.append_inj' h rfl
    exact Or.inl ⟨hp, List.singleton_inj.mp hx, rfl⟩
  · rw [List.concat_eq_append, ← List.cons_append, ← List.append_assoc] at h
    obtain ⟨hp, hx⟩ := List.append_inj' h rfl
    obtain rfl := List.singleton_inj.mp hx
    exact Or.inr ⟨post', List.concat_eq_append, hp⟩

/-- Two splits of a list at an element are the same, or one element stands after the other. -/
theorem split_split {α : Type} {pre pre' post post' : List α} {x y : α}
    (h : pre ++ x :: post = pre' ++ y :: post') :
    (pre = pre' ∧ x = y ∧ post = post') ∨ (∃ mid, post = mid ++ y :: post') ∨ ∃ mid, post' = mid ++ x :: post := by
  rcases List.append_eq_append_iff.mp h with ⟨mid, rfl, hrest⟩ | ⟨mid, rfl, hrest⟩
  · cases mid with
    | nil =>
      obtain ⟨hx, hpost⟩ := List.cons.inj hrest
      exact Or.inl ⟨(List.append_nil pre).symm, hx, hpost⟩
    | cons z mid =>
      rw [List.cons_append] at hrest
      exact Or.inr (Or.inl ⟨mid, (List.cons.inj hrest).2⟩)
  · cases mid with
    | nil =>
      obtain ⟨hy, hpost⟩ := List.cons.inj hrest
      exact Or.inl ⟨List.append_nil pre', hy.symm, hpost.symm⟩
    | cons z mid =>
      rw [List.cons_append] at hrest
      exact Or.inr (Or.inr ⟨mid, (List.cons.inj hrest).2⟩)

/-- **Step to run, with the past, at the end.** Such a property holds of the whole run and the state it
ends in. -/
theorem history_final {I : List (Taken σ ε) → σ → Prop} {s : σ} (h0 : I [] s)
    (hstep : ∀ past s e t, I past s → step s e = some t → I (past ++ [⟨s, e, t⟩]) t)
    (es : List ε) : I (trace step s es) (final step s es) := by
  suffices hgen : ∀ (es : List ε) (past : List (Taken σ ε)) (s : σ), I past s →
      I (past ++ trace step s es) (final step s es) by
    simpa using hgen es [] s h0
  intro es
  induction es with
  | nil => intro past s hI; simpa [trace, final] using hI
  | cons e es ih =>
    intro past s hI
    cases he : step s e with
    | none =>
      rw [trace_skip he]
      simp only [final, he]
      exact ih past s hI
    | some t =>
      rw [trace_take he]
      simp only [final, he]
      have hrest := ih (past ++ [⟨s, e, t⟩]) t (hstep past s e t hI he)
      rwa [List.append_assoc, List.singleton_append] at hrest

/-- **Simulation.** Where every step of a good state is a step of another system under an abstraction, so is every
run. -/
theorem trace_map {σ' ε' : Type} {step' : σ' → ε' → Option σ'} {f : σ → σ'} {g : ε → ε'} {P : σ → Prop}
    (hP : ∀ s e t, P s → step s e = some t → P t) (h : ∀ s e, P s → step' (f s) (g e) = (step s e).map f)
    {s : σ} (hs : P s) (es : List ε) :
    trace step' (f s) (es.map g) = (trace step s es).map (fun x => ⟨f x.before, g x.event, f x.after⟩) ∧
      final step' (f s) (es.map g) = f (final step s es) := by
  induction es generalizing s with
  | nil => exact ⟨rfl, rfl⟩
  | cons e es ih =>
    have hstep := h s e hs
    cases he : step s e with
    | none =>
      rw [he] at hstep
      simp only [List.map_cons, trace, final, hstep, he, Option.map_none]
      exact ih hs
    | some t =>
      rw [he] at hstep
      obtain ⟨htrace, hfinal⟩ := ih (hP s e t hs he)
      simp only [List.map_cons, trace, final, hstep, he, Option.map_some, htrace]
      exact ⟨trivial, hfinal⟩

/-- **Exactness.** If every step of the run that starts in a good state ends in a good state
exactly when the step is allowed, the run stays in good states exactly when all its steps are
allowed. -/
theorem states_iff_trace {P : σ → Prop} {ok : Taken σ ε → Prop} {s : σ} {es : List ε} (hs : P s)
    (hstep : ∀ x ∈ trace step s es, P x.before → (P x.after ↔ ok x)) :
    (∀ t ∈ states step s es, P t) ↔ ∀ x ∈ trace step s es, ok x := by
  induction es generalizing s with
  | nil => simpa [states, trace] using hs
  | cons e es ih =>
    cases he : step s e with
    | none =>
      rw [states_skip he, trace_skip he]
      rw [trace_skip he] at hstep
      exact ih hs hstep
    | some t =>
      rw [states_take he, trace_take he]
      rw [trace_take he] at hstep
      simp only [List.mem_cons, forall_eq_or_imp] at hstep ⊢
      have hfirst := hstep.1 hs
      constructor
      · rintro ⟨-, hall⟩
        have ht : P t := hall t List.mem_cons_self
        exact ⟨hfirst.mp ht, (ih ht hstep.2).mp hall⟩
      · rintro ⟨hok, hrest⟩
        exact ⟨hs, (ih (hfirst.mpr hok) hstep.2).mpr hrest⟩

end SenseVoice.Lib.Run
