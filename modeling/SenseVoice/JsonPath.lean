import Mathlib.Data.List.Infix
import Mathlib.Data.String.Basic
import SenseVoice.Json

/-!
# Paths into JSON values, and writing at one

A path goes down by keys and array indices; `follow` is what stands at its end. `insertAt` writes at a path of
keys: it creates the levels that are missing, and gives up on a level that is there and no object.

Results:
* `insertAt_isSome_iff`: it succeeds exactly if every level that is there is an object;
* `follow_insertAt`, `follow_insertAt_above`, `follow_insertAt_of_apart`: the value then stands at the path, under
  objects, and every path apart from it leads where it led;
* `insertAt_diamond`, `insertAt_eq_none_of_apart`: writes at paths apart from each other do not see each other.
-/

namespace SenseVoice.Value

/-! ## Fields -/

theorem setField_cons_self (k : String) (v w : Value) (rest : List (String × Value)) :
    setField k v ((k, w) :: rest) = (k, v) :: rest := by
  rw [setField, if_pos rfl]

theorem setField_cons_lt {k a : String} (h : k < a) (v w : Value) (rest : List (String × Value)) :
    setField k v ((a, w) :: rest) = (k, v) :: (a, w) :: rest := by
  rw [setField, if_neg h.ne, if_pos h]

theorem setField_cons_gt {k a : String} (h : a < k) (v w : Value) (rest : List (String × Value)) :
    setField k v ((a, w) :: rest) = (a, w) :: setField k v rest := by
  rw [setField, if_neg h.ne', if_neg (lt_asymm h)]

theorem setField_setField (k : String) (v w : Value) (fields : List (String × Value)) :
    setField k w (setField k v fields) = setField k w fields := by
  induction fields with
  | nil => exact setField_cons_self k w v []
  | cons f rest ih =>
    obtain ⟨a, u⟩ := f
    rcases lt_trichotomy k a with h | rfl | h
    · rw [setField_cons_lt h, setField_cons_lt h, setField_cons_self]
    · rw [setField_cons_self, setField_cons_self, setField_cons_self]
    · rw [setField_cons_gt h, setField_cons_gt h, setField_cons_gt h, ih]

theorem setField_comm_of_lt {k k' : String} (h : k < k') (v v' : Value) (fields : List (String × Value)) :
    setField k v (setField k' v' fields) = setField k' v' (setField k v fields) := by
  induction fields with
  | nil =>
    change setField k v ((k', v') :: []) = setField k' v' ((k, v) :: [])
    rw [setField_cons_lt h, setField_cons_gt h]
    rfl
  | cons f rest ih =>
    obtain ⟨a, w⟩ := f
    rcases lt_trichotomy k a with hk | rfl | hk
    · rw [setField_cons_lt hk, setField_cons_gt h]
      rcases lt_trichotomy k' a with hk' | rfl | hk'
      · rw [setField_cons_lt hk', setField_cons_lt h]
      · rw [setField_cons_self, setField_cons_lt h]
      · rw [setField_cons_gt hk', setField_cons_lt hk]
    · rw [setField_cons_gt h, setField_cons_self, setField_cons_self, setField_cons_gt h]
    · have hk' := hk.trans h
      rw [setField_cons_gt hk', setField_cons_gt hk, setField_cons_gt hk, setField_cons_gt hk', ih]

/-- Fields of different keys are written in any order. -/
theorem setField_comm {k k' : String} (hne : k ≠ k') (v v' : Value) (fields : List (String × Value)) :
    setField k v (setField k' v' fields) = setField k' v' (setField k v fields) := by
  rcases lt_or_gt_of_ne hne with h | h
  · exact setField_comm_of_lt h v v' fields
  · exact (setField_comm_of_lt h v' v fields).symm

/-! ## Paths -/

/-- One step down. -/
inductive PathStep where
  | key (k : String)
  | index (i : Nat)
deriving DecidableEq

def child (v : Value) (s : PathStep) : Option Value :=
  match v, s with
  | .object fields, .key k => fields.lookup k
  | .array items, .index i => items[i]?
  | _, _ => none

theorem child_key (v : Value) (k : String) : v.child (.key k) = v.get k := by cases v <;> rfl

/-- What stands at the end of a path. -/
def follow (v : Value) : List PathStep → Option Value
  | [] => some v
  | s :: path => (v.child s).bind fun w => w.follow path

/-- Neither path goes on where the other one ends. -/
def Apart (p q : List PathStep) : Prop := ¬ p <+: q ∧ ¬ q <+: p

/-- The path of these keys. -/
def keyPath (keys : List String) : List PathStep := keys.map .key

def IsObject (v : Value) : Prop := ∃ fields, v = .object fields

theorem Apart.symm {p q : List PathStep} (h : Apart p q) : Apart q p := ⟨h.2, h.1⟩

theorem not_apart_nil (q : List PathStep) : ¬ Apart [] q := fun h => h.1 List.nil_prefix

/-- Apart under a common first step. -/
theorem Apart.tail {s : PathStep} {p q : List PathStep} (h : Apart (s :: p) (s :: q)) : Apart p q := by
  constructor
  · exact fun hp => h.1 (List.cons_prefix_cons.mpr ⟨rfl, hp⟩)
  · exact fun hq => h.2 (List.cons_prefix_cons.mpr ⟨rfl, hq⟩)

theorem follow_key (fields : List (String × Value)) (k : String) (path : List PathStep) :
    (object fields).follow (.key k :: path) = (fields.lookup k).bind fun w => w.follow path := rfl

/-- There is nothing in an empty object. -/
theorem follow_empty {path : List PathStep} (h : path ≠ []) : (object []).follow path = none := by
  cases path with
  | nil => exact absurd rfl h
  | cons s path => cases s <;> rfl

/-! ## Writing at a path -/

/-- Write at a path of keys, creating the objects that are missing. -/
def insertAt (v : Value) : List String → Value → Option Value
  | [], _ => some v
  | k :: keys, .object fields =>
    (insertAt v keys ((fields.lookup k).getD (.object []))).map fun w => .object (setField k w fields)
  | _ :: _, _ => none

variable {v v' e e₁ e₂ : Value} {keys keys' : List String}

theorem insertAt_cons {k : String} (h : insertAt v (k :: keys) e = some e₁) :
    ∃ fields w, e = .object fields ∧ insertAt v keys ((fields.lookup k).getD (.object [])) = some w ∧
      e₁ = .object (setField k w fields) := by
  cases e with
  | object fields =>
    obtain ⟨w, hw, rfl⟩ := Option.map_eq_some_iff.mp h
    exact ⟨fields, w, rfl, hw, rfl⟩
  | _ => exact absurd h (by simp [insertAt])

/-- Every level above the end of the path that is there is an object. -/
def Room (e : Value) (keys : List String) : Prop :=
  ∀ above, above <+: keys → above ≠ keys → ∀ w, e.follow (keyPath above) = some w → w.IsObject

theorem room_nil (e : Value) : Room e [] := fun _ h hne => absurd (List.prefix_nil.mp h) hne

theorem room_cons {k : String} : Room e (k :: keys) ↔
    ∃ fields, e = .object fields ∧ Room ((fields.lookup k).getD (.object [])) keys := by
  constructor
  · intro h
    obtain ⟨fields, rfl⟩ := h [] List.nil_prefix (by simp) e rfl
    refine ⟨fields, rfl, fun above habove hne w hw => ?_⟩
    cases hchild : fields.lookup k with
    | none =>
      rw [hchild, Option.getD_none] at hw
      cases above with
      | nil =>
        obtain rfl := Option.some.inj hw
        exact ⟨[], rfl⟩
      | cons a above =>
        rw [follow_empty (by simp [keyPath])] at hw
        exact absurd hw (by simp)
    | some c =>
      rw [hchild, Option.getD_some] at hw
      refine h (k :: above) (List.cons_prefix_cons.mpr ⟨rfl, habove⟩) (by simpa using hne) w ?_
      change (fields.lookup k).bind _ = _
      rw [hchild]
      exact hw
  · rintro ⟨fields, rfl, h⟩ above habove hne w hw
    cases above with
    | nil =>
      obtain rfl := Option.some.inj hw
      exact ⟨fields, rfl⟩
    | cons a above =>
      obtain ⟨rfl, hrest⟩ := List.cons_prefix_cons.mp habove
      obtain ⟨c, hc, hw⟩ := Option.bind_eq_some_iff.mp hw
      have hchild : fields.lookup a = some c := hc
      refine h above hrest (by simpa using hne) w ?_
      rw [hchild]
      exact hw

theorem insertAt_isSome_iff : (insertAt v keys e).isSome = true ↔ Room e keys := by
  induction keys generalizing e with
  | nil => exact iff_of_true rfl (room_nil e)
  | cons k keys ih =>
    rw [room_cons]
    cases e with
    | object fields =>
      unfold insertAt
      rw [Option.isSome_map, ih]
      constructor
      · exact fun h => ⟨fields, rfl, h⟩
      · rintro ⟨fields', hfields, h⟩
        obtain rfl := Value.object.inj hfields
        exact h
    | _ =>
      refine iff_of_false (by simp [insertAt]) ?_
      rintro ⟨fields, hfields, -⟩
      exact Value.noConfusion hfields

theorem follow_insertAt (h : insertAt v keys e = some e₁) : e₁.follow (keyPath keys) = some v := by
  induction keys generalizing e e₁ with
  | nil => exact h.symm
  | cons k keys ih =>
    obtain ⟨fields, w, rfl, hw, rfl⟩ := insertAt_cons h
    change ((setField k w fields).lookup k).bind _ = _
    rw [lookup_setField, if_pos rfl, Option.bind_some]
    exact ih hw

/-- The levels above are objects then. -/
theorem follow_insertAt_above (h : insertAt v keys e = some e₁) {above : List String} (habove : above <+: keys)
    (hne : above ≠ keys) : ∃ w, e₁.follow (keyPath above) = some w ∧ w.IsObject := by
  induction keys generalizing e e₁ above with
  | nil => exact absurd (List.prefix_nil.mp habove) hne
  | cons k keys ih =>
    obtain ⟨fields, w, rfl, hw, rfl⟩ := insertAt_cons h
    cases above with
    | nil => exact ⟨_, rfl, _, rfl⟩
    | cons a above =>
      obtain ⟨rfl, hrest⟩ := List.cons_prefix_cons.mp habove
      obtain ⟨u, hu, hobject⟩ := ih hw hrest (by simpa using hne)
      refine ⟨u, ?_, hobject⟩
      change ((setField a w fields).lookup a).bind _ = _
      rw [lookup_setField, if_pos rfl, Option.bind_some]
      exact hu

/-- **Nothing else is changed.** -/
theorem follow_insertAt_of_apart (h : insertAt v keys e = some e₁) {path : List PathStep}
    (hpath : Apart (keyPath keys) path) : e₁.follow path = e.follow path := by
  induction keys generalizing e e₁ path with
  | nil => exact absurd hpath (not_apart_nil path)
  | cons k keys ih =>
    obtain ⟨fields, w, rfl, hw, rfl⟩ := insertAt_cons h
    cases path with
    | nil => exact absurd hpath.symm (not_apart_nil _)
    | cons s path =>
      cases s with
      | index i => rfl
      | key k' =>
        rw [follow_key, follow_key, lookup_setField]
        by_cases hk : k' = k
        · subst hk
          have hrest : Apart (keyPath keys) path := hpath.tail
          rw [if_pos rfl, Option.bind_some, ih hw hrest]
          cases fields.lookup k' with
          | none =>
            refine follow_empty ?_
            rintro rfl
            exact not_apart_nil _ hrest.symm
          | some c => rfl
        · rw [if_neg hk]

/-! ## Two writes -/

/-- The two keys under a common first key. -/
theorem Apart.keyPath_tail {k : String} (h : Apart (keyPath (k :: keys)) (keyPath (k :: keys'))) :
    Apart (keyPath keys) (keyPath keys') := Apart.tail h

/-- **The diamond**: two writes that succeed do so in either order, to the same value. -/
theorem insertAt_diamond (hapart : Apart (keyPath keys) (keyPath keys')) (h₁ : insertAt v keys e = some e₁)
    (h₂ : insertAt v' keys' e = some e₂) : ∃ e₃, insertAt v' keys' e₁ = some e₃ ∧ insertAt v keys e₂ = some e₃ := by
  induction keys generalizing e e₁ e₂ keys' with
  | nil => exact absurd hapart (not_apart_nil _)
  | cons k keys ih =>
    cases keys' with
    | nil => exact absurd hapart.symm (not_apart_nil _)
    | cons k' keys' =>
      obtain ⟨fields, w₁, rfl, hw₁, rfl⟩ := insertAt_cons h₁
      obtain ⟨fields', w₂, hfields, hw₂, rfl⟩ := insertAt_cons h₂
      obtain rfl := Value.object.inj hfields
      by_cases hk : k = k'
      · subst hk
        obtain ⟨w₃, hw₃, hw₃'⟩ := ih hapart.keyPath_tail hw₁ hw₂
        refine ⟨.object (setField k w₃ fields), ?_, ?_⟩
        · simp [insertAt, lookup_setField, hw₃, setField_setField]
        · simp [insertAt, lookup_setField, hw₃', setField_setField]
      · refine ⟨.object (setField k w₁ (setField k' w₂ fields)), ?_, ?_⟩
        · simp [insertAt, lookup_setField, Ne.symm hk, hw₂, setField_comm hk]
        · simp [insertAt, lookup_setField, hk, hw₁]

/-- A write that fails still fails after another one. -/
theorem insertAt_eq_none_of_apart (hapart : Apart (keyPath keys) (keyPath keys')) (h₁ : insertAt v keys e = some e₁)
    (h₂ : insertAt v' keys' e = none) : insertAt v' keys' e₁ = none := by
  induction keys generalizing e e₁ keys' with
  | nil => exact absurd hapart (not_apart_nil _)
  | cons k keys ih =>
    cases keys' with
    | nil => exact absurd hapart.symm (not_apart_nil _)
    | cons k' keys' =>
      obtain ⟨fields, w₁, rfl, hw₁, rfl⟩ := insertAt_cons h₁
      have hw₂ := Option.map_eq_none_iff.mp h₂
      by_cases hk : k = k'
      · subst hk
        have hnone := ih hapart.keyPath_tail hw₁ hw₂
        simp [insertAt, lookup_setField, hnone]
      · simp [insertAt, lookup_setField, Ne.symm hk, hw₂]

end SenseVoice.Value
