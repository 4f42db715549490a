/-!
# Computations with a state that survives exceptions

`ExceptT ε (StateM σ)` is the language of code that reads and writes a state and may raise: what was
written before an exception stays written. `outcome m s` is how `m` ends from `s` and the state it leaves.

Results: the outcome of every construct from the outcomes of its parts, `try` with `catch` and with
`finally` included, as a simp set.
-/

namespace SenseVoice.Lib

variable {ε σ α β : Type}

/-- How a computation ends, and the state it leaves. -/
abbrev Ended (ε σ α : Type) := Except ε α × σ

/-- What comes next is not reached if an exception is raised before. -/
def Ended.next (r : Ended ε σ α) (f : α → σ → Ended ε σ β) : Ended ε σ β :=
  match r with
  | (.ok a, t) => f a t
  | (.error e, t) => (.error e, t)

/-- A handler goes on from the state that the exception leaves. -/
def Ended.rescue (r : Ended ε σ α) (h : ε → σ → Ended ε σ α) : Ended ε σ α :=
  match r with
  | (.ok a, t) => (.ok a, t)
  | (.error e, t) => h e t

/-- A finalizer runs in either case; its own exception takes the place of an earlier one. -/
def Ended.anyway (r : Ended ε σ α) (f : σ → Ended ε σ Unit) : Ended ε σ α :=
  match f r.2 with
  | (.ok _, u) => (r.1, u)
  | (.error e, u) => (.error e, u)

@[simp] theorem next_ok (a : α) (t : σ) (f : α → σ → Ended ε σ β) :
    Ended.next (.ok a, t) f = f a t := rfl

@[simp] theorem next_error (e : ε) (t : σ) (f : α → σ → Ended ε σ β) :
    Ended.next (.error e, t) f = (.error e, t) := rfl

@[simp] theorem rescue_ok (a : α) (t : σ) (h : ε → σ → Ended ε σ α) :
    Ended.rescue (.ok a, t) h = (.ok a, t) := rfl

@[simp] theorem rescue_error (e : ε) (t : σ) (h : ε → σ → Ended ε σ α) :
    Ended.rescue (.error e, t) h = h e t := rfl

/-- The outcome of a computation. -/
def outcome (m : ExceptT ε (StateM σ) α) (s : σ) : Ended ε σ α := (m.run).run s

@[simp] theorem outcome_pure (a : α) (s : σ) :
    outcome (pure a : ExceptT ε (StateM σ) α) s = (.ok a, s) := rfl

@[simp] theorem outcome_throw (e : ε) (s : σ) :
    outcome (throw e : ExceptT ε (StateM σ) α) s = (.error e, s) := rfl

@[simp] theorem outcome_get (s : σ) : outcome (get : ExceptT ε (StateM σ) σ) s = (.ok s, s) := rfl

@[simp] theorem outcome_set (s t : σ) :
    outcome (set t : ExceptT ε (StateM σ) PUnit) s = (.ok ⟨⟩, t) := rfl

@[simp] theorem outcome_modify (f : σ → σ) (s : σ) :
    outcome (modify f : ExceptT ε (StateM σ) PUnit) s = (.ok ⟨⟩, f s) := rfl

@[simp] theorem outcome_bind (m : ExceptT ε (StateM σ) α) (f : α → ExceptT ε (StateM σ) β) (s : σ) :
    outcome (m >>= f) s = (outcome m s).next fun a => outcome (f a) := by
  change (ExceptT.bindCont f (m s).1) (m s).2 = _
  unfold outcome ExceptT.run StateT.run
  cases m s with
  | mk r t => cases r <;> rfl

@[simp] theorem outcome_discard (m : ExceptT ε (StateM σ) α) (s : σ) :
    outcome (discard m) s = (outcome m s).next fun _ t => (.ok ⟨⟩, t) := by
  have hmap : discard m = (fun _ => PUnit.unit) <$> m := rfl
  rw [hmap, map_eq_pure_bind, outcome_bind]
  rfl

@[simp] theorem outcome_tryCatch (m : ExceptT ε (StateM σ) α) (h : ε → ExceptT ε (StateM σ) α) (s : σ) :
    outcome (tryCatch m h) s = (outcome m s).rescue fun e => outcome (h e) := by
  change ((m >>= fun r => match r with
    | .ok a => pure (.ok a)
    | .error e => h e : StateM σ (Except ε α)) : StateM σ (Except ε α)) s = _
  unfold outcome ExceptT.run StateT.run
  simp only [bind, StateT.bind]
  cases m s with
  | mk r t => cases r <;> rfl

@[simp] theorem outcome_tryFinally (m : ExceptT ε (StateM σ) α) (f : ExceptT ε (StateM σ) Unit) (s : σ) :
    outcome (tryFinally m f) s = (outcome m s).anyway (outcome f) := by
  change (tryFinally m f : ExceptT ε (StateM σ) α) s = Ended.anyway (m s) fun t => f t
  cases hm : m s with
  | mk r t =>
    cases hf : f t with
    | mk r' u =>
      simp only [Ended.anyway, tryFinally, tryFinally', ExceptT.mk, Functor.map, ExceptT.map, bind,
        StateT.bind, hm]
      cases r <;> cases r' <;> simp only [hf] <;> rfl

end SenseVoice.Lib
