import Mathlib.Data.Nat.Init
import Mathlib.Tactic.NormNum

/-!
# Binary formats: readers and what they read

A `Reader` takes bytes from the front of its input or fails. `Reads r bytes a` says that in front of any
rest `bytes` is read as `a`, so it knows where its value ends. Formats are put together from fields: each
field is read whatever comes after it.

Results:
* `Reads.bind`, `Reads.map`, `Reads.times`: formats from fields;
* `reads_le`, `reads_field`: little-endian numbers, and bytes behind their own length;
* `Reads.whole`, `Reads.unique`: a format leaves no byte over and tells its values apart;
* `Takes.bind`: how many bytes a reader of fixed width has taken when it succeeds.
-/

namespace SenseVoice.Lib.Wire

/-- Bytes. -/
abbrev Bytes := List UInt8

/-- A reader from the front of its input. -/
abbrev Reader (α : Type) := StateT Bytes Option α

variable {α β : Type}

/-- In front of any rest, the bytes are read as `a`. -/
def Reads (r : Reader α) (bytes : Bytes) (a : α) : Prop :=
  ∀ rest, r.run (bytes ++ rest) = some (a, rest)

/-- Read the whole input. -/
def whole (r : Reader α) (bytes : Bytes) : Option α :=
  match r.run bytes with
  | some (a, []) => some a
  | _ => none

theorem Reads.whole {r : Reader α} {bytes : Bytes} {a : α} (h : Reads r bytes a) :
    whole r bytes = some a := by
  have hrun := h []
  rw [List.append_nil] at hrun
  rw [Wire.whole, hrun]

/-- The same bytes are not read as two values. -/
theorem Reads.unique {r : Reader α} {bytes : Bytes} {a b : α} (ha : Reads r bytes a)
    (hb : Reads r bytes b) : a = b := Option.some.inj (ha.whole.symm.trans hb.whole)

theorem reads_pure (a : α) : Reads (pure a) [] a := fun _ => rfl

/-- One field after another. -/
theorem Reads.bind {r : Reader α} {f : α → Reader β} {bytes bytes' : Bytes} {a : α} {b : β}
    (ha : Reads r bytes a) (hb : Reads (f a) bytes' b) : Reads (r >>= f) (bytes ++ bytes') b := by
  intro rest
  rw [List.append_assoc, StateT.run_bind, ha]
  exact hb rest

/-- The last field. -/
theorem Reads.bind_pure {r : Reader α} {f : α → Reader β} {bytes : Bytes} {a : α} {b : β}
    (ha : Reads r bytes a) (hb : Reads (f a) [] b) : Reads (r >>= f) bytes b := by
  have hboth := ha.bind hb
  rwa [List.append_nil] at hboth

theorem Reads.map {r : Reader α} {bytes : Bytes} {a : α} (g : α → β) (h : Reads r bytes a) :
    Reads (g <$> r) bytes (g a) := by
  intro rest
  rw [StateT.run_map, h]
  rfl

/-- Read `n` values. -/
def times (r : Reader α) : ℕ → Reader (List α)
  | 0 => pure []
  | n + 1 => do
    let a ← r
    let as ← times r n
    return a :: as

/-- As many values as the list has, each in its own bytes. -/
theorem Reads.times {r : Reader α} {enc : α → Bytes} (h : ∀ a, Reads r (enc a) a) (as : List α) :
    Reads (times r as.length) (as.flatMap enc) as := by
  induction as with
  | nil => exact reads_pure []
  | cons a as ih =>
    rw [List.flatMap_cons]
    exact (h a).bind (ih.bind_pure (reads_pure _))

/-- The first `n` bytes. -/
def take (n : ℕ) : Reader Bytes := fun input =>
  if n ≤ input.length then some (input.take n, input.drop n) else none

theorem reads_take (bytes : Bytes) : Reads (take bytes.length) bytes bytes := by
  intro rest
  change take bytes.length (bytes ++ rest) = _
  unfold take
  rw [if_pos (by simp), List.take_left, List.drop_left]

/-! ## Readers of fixed width -/

/-- On success, `n` bytes are gone. -/
def Takes (r : Reader α) (n : ℕ) : Prop :=
  ∀ ⦃bytes a rest⦄, r.run bytes = some (a, rest) → bytes.length = n + rest.length

theorem takes_pure (a : α) : Takes (pure a) 0 := by
  rintro bytes b rest ⟨⟩
  exact (Nat.zero_add _).symm

theorem takes_take (n : ℕ) : Takes (take n) n := by
  intro bytes a rest h
  change (if n ≤ bytes.length then some (bytes.take n, bytes.drop n) else none) = _ at h
  split_ifs at h with hn
  cases h
  rw [List.length_drop]
  omega

/-- One reader after another. -/
theorem Takes.bind {r : Reader α} {f : α → Reader β} {m n : ℕ} (hr : Takes r m) (hf : ∀ a, Takes (f a) n) :
    Takes (r >>= f) (m + n) := by
  intro bytes b rest h
  rw [StateT.run_bind] at h
  obtain ⟨⟨a, between⟩, ha, hb⟩ := Option.bind_eq_some_iff.1 h
  rw [hr ha, hf a hb, Nat.add_assoc]

theorem Takes.map {r : Reader α} {n : ℕ} (g : α → β) (h : Takes r n) : Takes (g <$> r) n := by
  intro bytes b rest hrun
  rw [StateT.run_map] at hrun
  obtain ⟨⟨a, _⟩, ha, ⟨⟩⟩ := Option.map_eq_some_iff.1 hrun
  exact h ha

/-! ## Little-endian numbers -/

/-- The `w` little-endian bytes of a number. -/
def le : ℕ → ℕ → Bytes
  | 0, _ => []
  | w + 1, n => UInt8.ofNat (n % 256) :: le w (n / 256)

/-- The number with these little-endian bytes. -/
def ofLE : Bytes → ℕ
  | [] => 0
  | b :: bs => b.toNat + 256 * ofLE bs

@[simp] theorem length_le (w n : ℕ) : (le w n).length = w := by
  induction w generalizing n with
  | zero => rfl
  | succ w ih => rw [le, List.length_cons, ih]

theorem ofLE_le {w n : ℕ} (h : n < 256 ^ w) : ofLE (le w n) = n := by
  induction w generalizing n with
  | zero =>
    have hzero : n = 0 := by simpa using h
    rw [hzero]
    rfl
  | succ w ih =>
    have hrest : n / 256 < 256 ^ w := by
      rw [pow_succ] at h
      omega
    have hbyte : (UInt8.ofNat (n % 256)).toNat = n % 256 := by
      rw [UInt8.toNat_ofNat']
      omega
    rw [le, ofLE, ih hrest, hbyte]
    omega

/-- Read a little-endian number of `w` bytes. -/
def readLE (w : ℕ) : Reader ℕ := ofLE <$> take w

theorem reads_le {w n : ℕ} (h : n < 256 ^ w) : Reads (readLE w) (le w n) n := by
  have hbytes := (reads_take (le w n)).map ofLE
  rwa [length_le, ofLE_le h] at hbytes

theorem takes_le (w : ℕ) : Takes (readLE w) w := (takes_take w).map ofLE

/-! ## Bytes behind their own length -/

/-- Bytes behind a length of `w` bytes. -/
def field (w : ℕ) (bytes : Bytes) : Bytes := le w bytes.length ++ bytes

/-- Read bytes behind a length of `w` bytes. -/
def readField (w : ℕ) : Reader Bytes := do
  let n ← readLE w
  take n

theorem reads_field {w : ℕ} {bytes : Bytes} (h : bytes.length < 256 ^ w) :
    Reads (readField w) (field w bytes) bytes := (reads_le h).bind (reads_take bytes)

end SenseVoice.Lib.Wire
