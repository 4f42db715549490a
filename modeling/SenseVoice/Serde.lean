import Mathlib.Data.String.Basic
import SenseVoice.Json
import SenseVoice.Lib.Binary64
import SenseVoice.Lib.JsonRoundTrip

/-!
# The text of JSON values (`serde_json::from_str`, `Value::to_string`)

`from_str` takes strict JSON with containers nested less than 128 deep, the last of two fields of one name,
and a number as `u64`, `i64` or `f64`, in this order; a number beyond `f64` is an error. `to_string` writes
no white space and the fields in key order.

The crate is a third-party one: `numberOf` is what it documents for its feature `float_roundtrip`, the `f64`
nearest to the numeral, and an error from half a unit beyond the largest on. The feature is off in the source.
The crate then scales in `f64`, and may miss the last place of a number, and with it the range of one next to
the largest: it refuses 1.7976931348623158e308, which rounds to the largest `f64` and is read here. No writer of
the source spells such a number, the shortest decimal of the largest being 1.7976931348623157e308. How the crate
spells `f64` values is a parameter (`ryu`).

Results:
* `fromStr_ofList`: what `from_str` makes of a written document;
* `canonical_json`: the values that `json!` builds have their fields in key order, each key once;
* **`fromStr_toText`**: such a value is read back from its text.
-/

namespace SenseVoice.Value

open Lib JsonText Binary64

/-- The number of a numeral, if it has one. -/
def numberOf (n : Numeral) : Option Number :=
  if n.isInteger ∧ n.negative = false ∧ n.whole < 2 ^ 64 then some (.unsigned n.whole)
  else if n.isInteger ∧ n.negative = true ∧ 0 < n.whole ∧ n.whole ≤ 2 ^ 63 then some (.negative (-n.whole))
  else (nearest? n.magnitude).map fun m => .float (if n.negative then -m.value else m.value)

mutual

/-- The value of a document. -/
def ofDoc : Doc Number → Value
  | .null => .null
  | .bool b => .bool b
  | .number n => .number n
  | .string s => .string s
  | .array items => .array (ofItems items)
  | .object fields => .object (setFields [] (ofFields fields))

/-- The values of the items of an array. -/
def ofItems : List (Doc Number) → List Value
  | [] => []
  | a :: as => ofDoc a :: ofItems as

/-- The values of the fields of an object. -/
def ofFields : List (String × Doc Number) → List (String × Value)
  | [] => []
  | (k, a) :: fs => (k, ofDoc a) :: ofFields fs

end

mutual

/-- The document of a value. -/
def toDoc : Value → Doc Number
  | .null => .null
  | .bool b => .bool b
  | .number n => .number n
  | .string s => .string s
  | .array items => .array (toItems items)
  | .object fields => .object (toFields fields)

/-- The documents of the items of an array. -/
def toItems : List Value → List (Doc Number)
  | [] => []
  | a :: as => toDoc a :: toItems as

/-- The documents of the fields of an object. -/
def toFields : List (String × Value) → List (String × Doc Number)
  | [] => []
  | (k, a) :: fs => (k, toDoc a) :: toFields fs

end

/-- The nesting `from_str` takes. -/
def maxDepth : ℕ := 127

/-- `serde_json::from_str`. -/
def fromStr (text : String) : Option Value :=
  (parse maxDepth text.toList).bind fun d => (d.mapM numberOf).map ofDoc

/-- Nothing between tokens. -/
def noGap : Gap := ⟨[], by simp⟩

/-- How `to_string` spells numbers. -/
def serdeSpelling (ryu : Spelling ℚ) : Spelling Number where
  spell
    | .unsigned n => spellNumeral false n [] none
    | .negative n => spellNumeral (n < 0) n.natAbs [] none
    | .float q => ryu.spell q
  numeral
    | .unsigned n => some (numeralOf false n [] none)
    | .negative n => some (numeralOf (n < 0) n.natAbs [] none)
    | .float q => ryu.numeral q
  plain
    | .unsigned _ => spellNumeral_plain _ _ _ _
    | .negative _ => spellNumeral_plain _ _ _ _
    | .float q => ryu.plain q
  reads
    | .unsigned n, _, hrest => readNumeral_integer false n hrest
    | .negative n, _, hrest => readNumeral_integer (n < 0) n.natAbs hrest
    | .float q, rest, hrest => ryu.reads q rest hrest

/-- `Value::to_string`. -/
def toText (ryu : Spelling ℚ) (v : Value) : String :=
  String.ofList (write noGap.text (serdeSpelling ryu).spell v.toDoc)

/-! ## Reading what was written -/

/-- **What `from_str` makes of a written document**, whatever spelled its numbers. -/
theorem fromStr_ofList {ν : Type} (gap : Gap) (σ : Spelling ν) {d : Doc ν} (h : d.depth ≤ maxDepth) :
    fromStr (String.ofList (write gap.text σ.spell d)) =
      (d.mapM fun n => (σ.numeral n).bind numberOf).map ofDoc := by
  rw [fromStr, String.toList_ofList, parse_write gap σ h, ← mapM_bind]
  cases d.mapM σ.numeral <;> rfl

/-- A numeral in the range of `f64` is a number. -/
theorem isSome_numberOf {n : Numeral} (h : (nearest? n.magnitude).isSome = true) :
    (numberOf n).isSome = true := by
  unfold numberOf
  by_cases hu : n.isInteger ∧ n.negative = false ∧ n.whole < 2 ^ 64
  · rw [if_pos hu]
    rfl
  by_cases hi : n.isInteger ∧ n.negative = true ∧ 0 < n.whole ∧ n.whole ≤ 2 ^ 63
  · rw [if_neg hu, if_pos hi]
    rfl
  rw [if_neg hu, if_neg hi, Option.isSome_map]
  exact h

/-- A `u64` is read as itself. -/
theorem numberOf_unsigned {n : ℕ} (h : n < 2 ^ 64) :
    numberOf (numeralOf false n [] none) = some (.unsigned n) := by
  rw [numberOf, if_pos ⟨rfl, rfl, h⟩]
  rfl

/-! ## Values in canonical form -/

/-- The keys go up. -/
def Sorted (fields : List (String × Value)) : Prop := fields.Pairwise fun f g => f.1 < g.1

theorem forall_setField {P : String → Prop} {k : String} {v : Value} {fields : List (String × Value)}
    (hk : P k) (h : ∀ f ∈ fields, P f.1) : ∀ f ∈ setField k v fields, P f.1 := by
  induction fields with
  | nil => simpa [setField] using hk
  | cons g fields ih =>
    obtain ⟨k', v'⟩ := g
    obtain ⟨hhead, htail⟩ := List.forall_mem_cons.mp h
    unfold setField
    split_ifs
    · exact List.forall_mem_cons.mpr ⟨hk, htail⟩
    · exact List.forall_mem_cons.mpr ⟨hk, h⟩
    · exact List.forall_mem_cons.mpr ⟨hhead, ih htail⟩

theorem Sorted.setField {fields : List (String × Value)} (h : Sorted fields) (k : String) (v : Value) :
    Sorted (setField k v fields) := by
  induction fields with
  | nil => exact List.pairwise_singleton _ _
  | cons g fields ih =>
    obtain ⟨k', v'⟩ := g
    obtain ⟨hhead, htail⟩ := List.pairwise_cons.mp h
    unfold Value.setField
    split_ifs with heq hlt
    · exact List.pairwise_cons.mpr ⟨heq ▸ hhead, htail⟩
    · refine List.pairwise_cons.mpr ⟨fun f hf => ?_, h⟩
      rcases List.mem_cons.mp hf with rfl | hf
      · exact hlt
      · exact lt_trans hlt (hhead f hf)
    · have hgt : k' < k := lt_of_le_of_ne (not_lt.mp hlt) (Ne.symm heq)
      exact List.pairwise_cons.mpr ⟨forall_setField (P := fun x => k' < x) hgt hhead, ih htail⟩

theorem Sorted.setFields {fields : List (String × Value)} (h : Sorted fields)
    (new : List (String × Value)) : Sorted (setFields fields new) := by
  induction new generalizing fields with
  | nil => exact h
  | cons f new ih => exact ih (h.setField f.1 f.2)

/-- A field whose key is larger goes to the end. -/
theorem setField_of_lt {k : String} (v : Value) {fields : List (String × Value)}
    (h : ∀ f ∈ fields, f.1 < k) : setField k v fields = fields ++ [(k, v)] := by
  induction fields with
  | nil => rfl
  | cons g fields ih =>
    obtain ⟨k', v'⟩ := g
    obtain ⟨hhead, htail⟩ := List.forall_mem_cons.mp h
    rw [setField, if_neg (ne_of_gt hhead), if_neg (lt_asymm hhead), ih htail, List.cons_append]

theorem setFields_of_sorted {fields new : List (String × Value)} (h : Sorted (fields ++ new)) :
    setFields fields new = fields ++ new := by
  induction new generalizing fields with
  | nil => rw [setFields_nil, List.append_nil]
  | cons f new ih =>
    obtain ⟨k, v⟩ := f
    have hbefore : ∀ f ∈ fields, f.1 < k := fun f hf =>
      (List.pairwise_append.mp h).2.2 f hf (k, v) List.mem_cons_self
    rw [setFields_cons, setField_of_lt v hbefore, ih (by simpa using h), List.append_assoc,
      List.singleton_append]

section Canonical

variable (ryu : Spelling ℚ)

/-- The number that is read from the text of a number. -/
def reread (n : Number) : Option Number := ((serdeSpelling ryu).numeral n).bind numberOf

mutual

/-- The fields of every object are in key order, and every number is read back. -/
def Canonical : Value → Prop
  | .number n => reread ryu n = some n
  | .array items => CanonicalItems items
  | .object fields => Sorted fields ∧ CanonicalFields fields
  | _ => True

/-- The items of an array are canonical. -/
def CanonicalItems : List Value → Prop
  | [] => True
  | a :: as => Canonical a ∧ CanonicalItems as

/-- The values of the fields of an object are canonical. -/
def CanonicalFields : List (String × Value) → Prop
  | [] => True
  | (_, a) :: fs => Canonical a ∧ CanonicalFields fs

end

variable {ryu}

mutual

theorem mapM_toDoc : ∀ v : Value, Canonical ryu v → v.toDoc.mapM (reread ryu) = some v.toDoc
  | .null, _ => rfl
  | .bool _, _ => rfl
  | .number n, h => by
    have hn : reread ryu n = some n := h
    rw [toDoc, Doc.mapM, hn]
    rfl
  | .string _, _ => rfl
  | .array items, h => by
    rw [toDoc, Doc.mapM, mapItems_toDoc items h]
    rfl
  | .object fields, h => by
    rw [toDoc, Doc.mapM, mapFields_toDoc fields h.2]
    rfl

theorem mapItems_toDoc :
    ∀ as : List Value, CanonicalItems ryu as → mapItems (reread ryu) (toItems as) = some (toItems as)
  | [], _ => rfl
  | a :: as, h => by
    rw [toItems, mapItems, mapM_toDoc a h.1, mapItems_toDoc as h.2]
    rfl

theorem mapFields_toDoc : ∀ fs : List (String × Value), CanonicalFields ryu fs →
    mapFields (reread ryu) (toFields fs) = some (toFields fs)
  | [], _ => rfl
  | (_, a) :: fs, h => by
    rw [toFields, mapFields, mapM_toDoc a h.1, mapFields_toDoc fs h.2]
    rfl

end

mutual

theorem ofDoc_toDoc : ∀ v : Value, Canonical ryu v → ofDoc v.toDoc = v
  | .null, _ => rfl
  | .bool _, _ => rfl
  | .number _, _ => rfl
  | .string _, _ => rfl
  | .array items, h => by rw [toDoc, ofDoc, ofItems_toItems items h]
  | .object fields, h => by
    have hsorted : Sorted ([] ++ fields) := h.1
    rw [toDoc, ofDoc, ofFields_toFields fields h.2, setFields_of_sorted hsorted, List.nil_append]

theorem ofItems_toItems : ∀ as : List Value, CanonicalItems ryu as → ofItems (toItems as) = as
  | [], _ => rfl
  | a :: as, h => by rw [toItems, ofItems, ofDoc_toDoc a h.1, ofItems_toItems as h.2]

theorem ofFields_toFields :
    ∀ fs : List (String × Value), CanonicalFields ryu fs → ofFields (toFields fs) = fs
  | [], _ => rfl
  | (k, a) :: fs, h => by rw [toFields, ofFields, ofDoc_toDoc a h.1, ofFields_toFields fs h.2]

end

/-- **A canonical value is read back from its text.** -/
theorem fromStr_toText {v : Value} (hv : Canonical ryu v) (h : v.toDoc.depth ≤ maxDepth) :
    fromStr (toText ryu v) = some v := by
  have hread := fromStr_ofList noGap (serdeSpelling ryu) h
  have hmap : (v.toDoc.mapM fun n => ((serdeSpelling ryu).numeral n).bind numberOf) = some v.toDoc :=
    mapM_toDoc v hv
  rw [hmap, Option.map_some, ofDoc_toDoc v hv] at hread
  exact hread

theorem canonicalFields_iff {fields : List (String × Value)} :
    CanonicalFields ryu fields ↔ ∀ f ∈ fields, Canonical ryu f.2 := by
  induction fields with
  | nil => simp [CanonicalFields]
  | cons f fields ih => rw [CanonicalFields, ih, List.forall_mem_cons]

theorem mem_setField {k : String} {v : Value} {fields : List (String × Value)} {f : String × Value}
    (h : f ∈ setField k v fields) : f = (k, v) ∨ f ∈ fields := by
  induction fields with
  | nil => exact Or.inl (List.mem_singleton.mp h)
  | cons g fields ih =>
    obtain ⟨k', v'⟩ := g
    unfold setField at h
    split_ifs at h
    · exact (List.mem_cons.mp h).imp_right (List.mem_cons_of_mem _)
    · exact List.mem_cons.mp h
    · rcases List.mem_cons.mp h with rfl | h
      · exact Or.inr List.mem_cons_self
      · exact (ih h).imp_right (List.mem_cons_of_mem _)

theorem mem_setFields {fields new : List (String × Value)} {f : String × Value}
    (h : f ∈ setFields fields new) : f ∈ fields ∨ f ∈ new := by
  induction new generalizing fields with
  | nil => exact Or.inl h
  | cons g new ih =>
    rcases ih h with h | h
    · rcases mem_setField h with rfl | h
      · exact Or.inr List.mem_cons_self
      · exact Or.inl h
    · exact Or.inr (List.mem_cons_of_mem _ h)

/-- **What `json!` builds of canonical values is canonical.** -/
theorem canonical_json {fields : List (String × Value)} (h : ∀ f ∈ fields, Canonical ryu f.2) :
    Canonical ryu (json fields) := by
  refine ⟨Sorted.setFields List.Pairwise.nil fields, canonicalFields_iff.mpr fun f hf => ?_⟩
  exact h f ((mem_setFields hf).resolve_left List.not_mem_nil)

/-- `json!` nests its values once more. -/
theorem depth_json {fields : List (String × Value)} {n : ℕ} (h : ∀ f ∈ fields, f.2.toDoc.depth ≤ n) :
    (json fields).toDoc.depth ≤ n + 1 := by
  have hfields : ∀ fs : List (String × Value), (∀ f ∈ fs, f.2.toDoc.depth ≤ n) →
      depthFields (toFields fs) ≤ n := by
    intro fs hfs
    induction fs with
    | nil => exact Nat.zero_le n
    | cons f fs ih =>
      obtain ⟨hhead, htail⟩ := List.forall_mem_cons.mp hfs
      exact Nat.max_le.mpr ⟨hhead, ih htail⟩
  exact Nat.succ_le_succ (hfields _ fun f hf =>
    h f ((mem_setFields hf).resolve_left List.not_mem_nil))

end Canonical

end SenseVoice.Value
