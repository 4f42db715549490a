import Mathlib.Data.List.AList

/-!
# Tables: finite maps with an iteration order

`Table κ α` is Mathlib's `AList` at a constant value type: a finite map whose entries also have an
order, the one a loop over the map visits them in. Mathlib has `lookup`, `insert` and `erase`;
this file adds the operations a program makes on a whole map:

* `mapVal`: rewrite every value in place;
* `modify`: rewrite the value under one key;
* `retain`: drop the entries a predicate rejects;
* `keysWhere`, `countWhere`: the keys, in iteration order, of the entries a predicate selects, and
  their number.

Results: what `lookup` reads after each operation, and `countWhere_le` / `countWhere_succ`, which
compare two counts through the selected keys alone, whatever the entries' order.
-/

namespace SenseVoice.Lib

/-- A finite map from `κ` to `α`. -/
abbrev Table (κ α : Type) := AList (fun _ : κ => α)

namespace Table

variable {κ α : Type}

/-- Rewrite every value, keys and order kept. -/
def mapVal (f : κ → α → α) (t : Table κ α) : Table κ α :=
  ⟨t.entries.map fun e => ⟨e.1, f e.1 e.2⟩, t.nodupKeys.map₂ f⟩

/-- Keep the entries `p` accepts. -/
def retain (p : κ → α → Bool) (t : Table κ α) : Table κ α :=
  ⟨t.entries.filter fun e => p e.1 e.2, t.nodupKeys.sublist List.filter_sublist⟩

/-- The keys of the entries `p` selects, in iteration order. -/
def keysWhere (p : κ → α → Bool) (t : Table κ α) : List κ :=
  (t.entries.filter fun e => p e.1 e.2).map Sigma.fst

/-- The number of entries `p` selects. -/
def countWhere (p : κ → α → Bool) (t : Table κ α) : Nat :=
  (t.entries.filter fun e => p e.1 e.2).length

/-! ## Selected keys and their number -/

theorem nodup_keysWhere (p : κ → α → Bool) (t : Table κ α) : (keysWhere p t).Nodup :=
  t.nodupKeys.sublist List.filter_sublist

theorem length_keysWhere (p : κ → α → Bool) (t : Table κ α) :
    (keysWhere p t).length = countWhere p t := List.length_map _

/-- A selection whose keys another selection contains is no larger. -/
theorem countWhere_le {p q : κ → α → Bool} {t u : Table κ α}
    (h : ∀ k ∈ keysWhere p t, k ∈ keysWhere q u) : countWhere p t ≤ countWhere q u := by
  rw [← length_keysWhere, ← length_keysWhere]
  exact (List.subperm_of_subset (nodup_keysWhere p t) h).length_le

/-- A selection with at most one key more than another is at most one larger. -/
theorem countWhere_le_succ {p q : κ → α → Bool} {t u : Table κ α} (k₀ : κ)
    (h : ∀ k ∈ keysWhere p t, k = k₀ ∨ k ∈ keysWhere q u) :
    countWhere p t ≤ countWhere q u + 1 := by
  rw [← length_keysWhere, ← length_keysWhere]
  exact (List.subperm_of_subset (nodup_keysWhere p t)
    fun k hk => List.mem_cons.mpr (h k hk)).length_le

/-- A selection with exactly one key more than another is exactly one larger. -/
theorem countWhere_succ {p q : κ → α → Bool} {t u : Table κ α} (k₀ : κ)
    (hnew : k₀ ∉ keysWhere q u)
    (h : ∀ k, k ∈ keysWhere p t ↔ k = k₀ ∨ k ∈ keysWhere q u) :
    countWhere p t = countWhere q u + 1 := by
  rw [← length_keysWhere, ← length_keysWhere, ← List.length_cons (a := k₀)]
  refine List.Perm.length_eq ((List.perm_ext_iff_of_nodup (nodup_keysWhere p t)
    (List.nodup_cons.mpr ⟨hnew, nodup_keysWhere q u⟩)).mpr fun k => ?_)
  rw [h k, List.mem_cons]

/-! ## Reading after an operation -/

variable [DecidableEq κ]

/-- Rewrite the value under `k`, if there is one. -/
def modify (k : κ) (f : α → α) (t : Table κ α) : Table κ α :=
  mapVal (fun k' a => if k' = k then f a else a) t

@[simp] theorem lookup_mapVal (f : κ → α → α) (t : Table κ α) (k : κ) :
    (mapVal f t).lookup k = (t.lookup k).map (f k) :=
  List.dlookup_map₂ (f := f) k

theorem lookup_modify (k : κ) (f : α → α) (t : Table κ α) (k' : κ) :
    (modify k f t).lookup k' = if k' = k then (t.lookup k').map f else t.lookup k' := by
  unfold modify
  rw [lookup_mapVal]
  split
  · rfl
  · exact Option.map_id'

theorem lookup_eq_some {t : Table κ α} {k : κ} {a : α} :
    t.lookup k = some a ↔ (⟨k, a⟩ : Sigma fun _ : κ => α) ∈ t.entries :=
  AList.mem_lookup_iff

@[simp] theorem lookup_retain (p : κ → α → Bool) (t : Table κ α) (k : κ) :
    (retain p t).lookup k = (t.lookup k).filter (p k) := by
  ext a
  rw [lookup_eq_some, Option.filter_eq_some_iff, lookup_eq_some]
  exact List.mem_filter

theorem lookup_insert_eq (k : κ) (a : α) (t : Table κ α) (k' : κ) :
    (t.insert k a).lookup k' = if k' = k then some a else t.lookup k' := by
  split
  · rename_i h
    rw [h]
    exact AList.lookup_insert t
  · rename_i h
    exact AList.lookup_insert_ne h

/-- What a table holds after an insertion is the new value under its key, or was there before. -/
theorem lookup_insert_cases {k k' : κ} {a b : α} {t : Table κ α} (h : (t.insert k a).lookup k' = some b) :
    (k' = k ∧ a = b) ∨ (k' ≠ k ∧ t.lookup k' = some b) := by
  rw [lookup_insert_eq] at h
  split at h
  · exact Or.inl ⟨‹_›, Option.some.inj h⟩
  · exact Or.inr ⟨‹_›, h⟩

theorem lookup_erase_eq (k : κ) (t : Table κ α) (k' : κ) :
    (t.erase k).lookup k' = if k' = k then none else t.lookup k' := by
  split
  · rename_i h
    rw [h]
    exact AList.lookup_erase k t
  · rename_i h
    exact AList.lookup_erase_ne h

theorem length_erase_le (t : Table κ α) (k : κ) : (t.erase k).entries.length ≤ t.entries.length :=
  (List.kerase_sublist k t.entries).length_le

theorem length_insert_le (t : Table κ α) (k : κ) (a : α) :
    (t.insert k a).entries.length ≤ t.entries.length + 1 := by
  rw [AList.entries_insert, List.length_cons]
  exact Nat.succ_le_succ (length_erase_le t k)

theorem mem_iff_lookup {t : Table κ α} {k : κ} : k ∈ t ↔ ∃ a, t.lookup k = some a := by
  rw [← AList.lookup_isSome, Option.isSome_iff_exists]

/-- What holds of every value that can be looked up holds of every entry. -/
theorem forall_lookup {P : κ → α → Prop} {t : Table κ α} :
    (∀ k a, t.lookup k = some a → P k a) ↔ ∀ e ∈ t.entries, P e.1 e.2 := by
  constructor
  · exact fun h e he => h e.1 e.2 (lookup_eq_some.mpr he)
  · exact fun h k a hl => h ⟨k, a⟩ (lookup_eq_some.mp hl)

/-- Rewriting every value to itself. -/
theorem mapVal_eq_self {f : κ → α → α} {t : Table κ α} (h : ∀ k a, t.lookup k = some a → f k a = a) :
    mapVal f t = t := by
  refine AList.ext ?_
  refine (List.map_congr_left fun e he => ?_).trans (List.map_id t.entries)
  exact Sigma.ext rfl (heq_of_eq (forall_lookup.mp h e he))

/-- Keeping every entry. -/
theorem retain_eq_self {p : κ → α → Bool} {t : Table κ α} (h : ∀ k a, t.lookup k = some a → p k a = true) :
    retain p t = t := by
  refine AList.ext ?_
  exact List.filter_eq_self.mpr (forall_lookup.mp h)

theorem mem_keysWhere {p : κ → α → Bool} {t : Table κ α} {k : κ} :
    k ∈ keysWhere p t ↔ ∃ a, t.lookup k = some a ∧ p k a = true := by
  simp only [keysWhere, List.mem_map, List.mem_filter]
  constructor
  · rintro ⟨⟨k, a⟩, ⟨hm, hp⟩, rfl⟩
    exact ⟨a, lookup_eq_some.mpr hm, hp⟩
  · rintro ⟨a, hl, hp⟩
    exact ⟨⟨k, a⟩, ⟨lookup_eq_some.mp hl, hp⟩, rfl⟩

end Table

end SenseVoice.Lib
