/-!
# JSON values (`serde_json::Value`)

`Value` is `serde_json::Value` with its default map, a `BTreeMap`: the fields of an object are kept
in key order and `setField` is `Map::insert`. A number is one of the three forms `serde_json::Number`
has. A message on a link is the value whose text is sent: `to_string` and `from_str` lose nothing
between them, so the text is left out.

Results: `lookup_setField` (reading a field after writing one) and `lookup_setFields_of_ne` (after
writing others).
-/

namespace SenseVoice

/-- `serde_json::Number`. -/
inductive Number where
  | unsigned (n : Nat)
  | negative (n : Int)
  | float (q : Rat)
deriving DecidableEq

/-- The rational a number stands for. -/
def Number.toRat : Number → Rat
  | .unsigned n => Rat.ofInt n
  | .negative n => Rat.ofInt n
  | .float q => q

/-- `serde_json::Value`. -/
inductive Value where
  | null
  | bool (b : Bool)
  | number (n : Number)
  | string (s : String)
  | array (items : List Value)
  | object (fields : List (String × Value))

namespace Value

/-- `Map::insert` on fields in key order. -/
def setField (k : String) (v : Value) : List (String × Value) → List (String × Value)
  | [] => [(k, v)]
  | (k', v') :: rest =>
    if k = k' then (k, v) :: rest
    else if k < k' then (k, v) :: (k', v') :: rest
    else (k', v') :: setField k v rest

/-- `Map::extend`. -/
def setFields (fields new : List (String × Value)) : List (String × Value) :=
  new.foldl (fun m f => setField f.1 f.2 m) fields

/-- `json!({ .. })`. -/
def json (fields : List (String × Value)) : Value := .object (setFields [] fields)

/-- `Value::get` with a string index. -/
def get (v : Value) (k : String) : Option Value :=
  match v with
  | .object fields => fields.lookup k
  | _ => none

/-- `Value::as_str`. -/
def asStr : Value → Option String
  | .string s => some s
  | _ => none

/-- `Value::as_u64`. -/
def asU64 : Value → Option Nat
  | .number (.unsigned n) => some n
  | _ => none

/-- `Value::as_bool`. -/
def asBool : Value → Option Bool
  | .bool b => some b
  | _ => none

/-- `a.as_object_mut()`, `b.as_object()` and `a.extend(b.clone())`. -/
def extend (a b : Value) : Value :=
  match a, b with
  | .object fields, .object new => .object (setFields fields new)
  | _, _ => a

/-- The string field `k`: `event.get(k).and_then(Value::as_str)`. -/
def strField (v : Value) (k : String) : Option String := (v.get k).bind asStr

/-! ## Reading after writing -/

theorem lookup_cons_eq (k k' : String) (v : Value) (rest : List (String × Value)) :
    ((k, v) :: rest).lookup k' = if k' = k then some v else rest.lookup k' := by
  rw [List.lookup_cons]
  by_cases h : k' = k
  · simp [h]
  · rw [if_neg h, beq_false_of_ne h]

theorem lookup_setField (k k' : String) (v : Value) (fields : List (String × Value)) :
    (setField k v fields).lookup k' = if k' = k then some v else fields.lookup k' := by
  induction fields with
  | nil => exact lookup_cons_eq k k' v []
  | cons f rest ih =>
    obtain ⟨k₁, v₁⟩ := f
    unfold setField
    split
    · rename_i hk
      subst hk
      rw [lookup_cons_eq, lookup_cons_eq]
      split <;> rfl
    · rename_i hne
      split
      · rw [lookup_cons_eq]
      · rw [lookup_cons_eq, lookup_cons_eq, ih]
        by_cases h : k' = k₁
        · have hk : ¬ k' = k := fun hk => hne (hk ▸ h)
          rw [if_pos h, if_neg hk, if_pos h]
        · rw [if_neg h, if_neg h]

@[simp] theorem get_object (fields : List (String × Value)) (k : String) :
    (object fields).get k = fields.lookup k := rfl

@[simp] theorem setFields_nil (fields : List (String × Value)) : setFields fields [] = fields := rfl

@[simp] theorem setFields_cons (fields : List (String × Value)) (k : String) (v : Value)
    (new : List (String × Value)) :
    setFields fields ((k, v) :: new) = setFields (setField k v fields) new := rfl

/-- Fields that are not written keep their value. -/
theorem lookup_setFields_of_ne (fields new : List (String × Value)) (k : String)
    (h : ∀ f ∈ new, f.1 ≠ k) : (setFields fields new).lookup k = fields.lookup k := by
  induction new generalizing fields with
  | nil => rfl
  | cons f new ih =>
    obtain ⟨k₁, v₁⟩ := f
    have hne : k ≠ k₁ := (h _ List.mem_cons_self).symm
    rw [setFields_cons, ih _ fun f hf => h f (List.mem_cons_of_mem _ hf), lookup_setField,
      if_neg hne]

end Value

end SenseVoice
