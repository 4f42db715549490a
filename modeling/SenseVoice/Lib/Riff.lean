import SenseVoice.Lib.Wire

/-!
# Chunked files (RIFF)

A chunk is a name of four bytes, the length of its data, and the data, with a zero after an odd number of
bytes. A reader goes from chunk to chunk by these lengths (`walk`); it reads no further than the chunk it is
in says (`Window`), and what it does with a chunk is up to `visit`.

Results:
* `Chunk.next_unpadded`, `Chunk.read_data`, `Chunk.skip_data`: a chunk that was written is read or passed over;
* **`walk_chunks`**: a reader passes over all the chunks that `visit` does not end the walk at, whatever
  their names and contents, and comes to the chunk behind them.
-/

namespace SenseVoice.Lib.Riff

open Wire

/-! ## Reading -/

/-- How many bytes may still be read, and the bytes of the file from here. -/
structure Window where
  left : ℕ
  file : Bytes

namespace Window

/-- Read up to `n` bytes. -/
def read (n : ℕ) (w : Window) : Bytes × Window :=
  let data := w.file.take (min n w.left)
  (data, ⟨w.left - data.length, w.file.drop data.length⟩)

/-- Pass over `n` bytes, also beyond the end of the file, but not of the window. -/
def skip (n : ℕ) (w : Window) : Option Window :=
  if n ≤ w.left then some ⟨w.left - n, w.file.drop n⟩ else none

/-- The header of the next chunk: its name and length, and the window behind it. -/
def next (w : Window) : Option (Bytes × ℕ × Window) :=
  let (name, w) := w.read 4
  if name.length < 4 then none
  else
    let (size, w) := w.read 4
    if size.length < 4 then none else some (name, ofLE size, w)

theorem read_append {data rest : Bytes} {n left : ℕ} (hn : data.length = n) (h : n ≤ left) :
    read n ⟨left, data ++ rest⟩ = (data, ⟨left - n, rest⟩) := by
  have htake : (data ++ rest).take (min n left) = data := by
    rw [Nat.min_eq_left h, List.take_left' hn]
  simp only [read, htake, hn, List.drop_left' hn]

theorem skip_append {data rest : Bytes} {left : ℕ} (h : data.length ≤ left) :
    skip data.length ⟨left, data ++ rest⟩ = some ⟨left - data.length, rest⟩ := by
  rw [skip, if_pos h, List.drop_left]

/-- A header that was written is read. -/
theorem next_append {name rest : Bytes} {size left : ℕ} (hname : name.length = 4) (hsize : size < 256 ^ 4)
    (h : 8 ≤ left) : next ⟨left, name ++ (le 4 size ++ rest)⟩ = some (name, size, ⟨left - 8, rest⟩) := by
  have hread : read 4 ⟨left, name ++ (le 4 size ++ rest)⟩ = (name, ⟨left - 4, le 4 size ++ rest⟩) :=
    read_append hname (by omega)
  have hlen : read 4 ⟨left - 4, le 4 size ++ rest⟩ = (le 4 size, ⟨left - 4 - 4, rest⟩) :=
    read_append (length_le 4 size) (by omega)
  simp only [next, hread, hname, hlen, length_le, lt_irrefl, if_false, ofLE_le hsize, Nat.sub_sub]

end Window

/-! ## Chunks -/

/-- A chunk. -/
structure Chunk where
  name : Bytes
  data : Bytes
  named : name.length = 4
  fits : data.length < 256 ^ 4

namespace Chunk

/-- What follows an odd number of bytes. -/
def pad (c : Chunk) : Bytes := List.replicate (c.data.length % 2) 0

/-- The chunk's header and data. -/
def unpadded (c : Chunk) : Bytes := c.name ++ (le 4 c.data.length ++ c.data)

/-- The chunk in a file. -/
def bytes (c : Chunk) : Bytes := c.unpadded ++ c.pad

variable {c : Chunk} {rest : Bytes} {left : ℕ}

theorem length_unpadded (c : Chunk) : c.unpadded.length = 8 + c.data.length := by
  simp only [unpadded, List.length_append, length_le, c.named]
  omega

theorem length_bytes (c : Chunk) : c.bytes.length = 8 + (c.data.length + c.data.length % 2) := by
  rw [bytes, List.length_append, length_unpadded, pad, List.length_replicate]
  omega

theorem next_unpadded (h : c.unpadded.length ≤ left) : Window.next ⟨left, c.unpadded ++ rest⟩ =
    some (c.name, c.data.length, ⟨left - 8, c.data ++ rest⟩) := by
  rw [length_unpadded] at h
  rw [unpadded, List.append_assoc, List.append_assoc]
  exact Window.next_append c.named c.fits (by omega)

theorem read_data (h : c.unpadded.length ≤ left) :
    (Window.read c.data.length ⟨left - 8, c.data ++ rest⟩).1 = c.data := by
  rw [length_unpadded] at h
  rw [Window.read_append rfl (by omega)]

theorem skip_data (h : c.bytes.length ≤ left) :
    Window.skip (c.data.length + c.data.length % 2) ⟨left - 8, c.data ++ (c.pad ++ rest)⟩ =
      some ⟨left - c.bytes.length, rest⟩ := by
  rw [length_bytes] at h ⊢
  have hlen : (c.data ++ c.pad).length = c.data.length + c.data.length % 2 := by
    rw [List.length_append, pad, List.length_replicate]
  rw [← hlen, ← List.append_assoc, Window.skip_append (by omega), Nat.sub_sub]

end Chunk

/-! ## From chunk to chunk -/

section Walk

variable {ε σ β : Type} (visit : σ → Bytes → ℕ → Bytes → Except ε (σ ⊕ β)) (ended outside : ε)

/-- Go through the chunks: `visit` is given the name, the length and the data of each, and goes on with a
state or ends the walk. The walk fails with `ended` where no chunk is left, and with `outside` where a
chunk is longer than the window. Every chunk takes up bytes, so no walk needs more fuel than its file is long. -/
def walk : (fuel : ℕ) → σ → Window → Except ε β
  | 0, _, _ => .error ended
  | fuel + 1, s, w =>
    match w.next with
    | none => .error ended
    | some (name, size, body) =>
      match visit s name size (body.read size).1 with
      | .error e => .error e
      | .ok (.inr b) => .ok b
      | .ok (.inl s) =>
        match body.skip (size + size % 2) with
        | none => .error outside
        | some w => walk fuel s w

/-- The chunks of a list, in a file. -/
def writeChunks (cs : List Chunk) : Bytes := cs.flatMap Chunk.bytes

/-- `visit` passes over the chunks, and goes on with `s'`. -/
def Passes : σ → List Chunk → σ → Prop
  | s, [], s' => s = s'
  | s, c :: cs, s' => ∃ t, visit s c.name c.data.length c.data = .ok (.inl t) ∧ Passes t cs s'

variable {visit ended outside}

theorem Passes.append {s t u : σ} {cs ds : List Chunk} (hcs : Passes visit s cs t) (hds : Passes visit t ds u) :
    Passes visit s (cs ++ ds) u := by
  induction cs generalizing s with
  | nil =>
    obtain rfl : s = t := hcs
    exact hds
  | cons c cs ih =>
    obtain ⟨v, hv, hcs⟩ := hcs
    exact ⟨v, hv, ih hcs⟩

/-- Chunks that leave the state as it is. -/
theorem passes_of_ignored {s : σ} {cs : List Chunk}
    (h : ∀ c ∈ cs, visit s c.name c.data.length c.data = .ok (.inl s)) : Passes visit s cs s := by
  induction cs with
  | nil => exact rfl
  | cons c cs ih =>
    exact ⟨s, h c List.mem_cons_self, ih fun d hd => h d (List.mem_cons_of_mem _ hd)⟩

/-- One chunk is passed over. -/
theorem walk_pass {s t : σ} {c : Chunk} {rest : Bytes} {left fuel : ℕ}
    (hvisit : visit s c.name c.data.length c.data = .ok (.inl t)) (h : c.bytes.length ≤ left) :
    walk visit ended outside (fuel + 1) s ⟨left, c.bytes ++ rest⟩ =
      walk visit ended outside fuel t ⟨left - c.bytes.length, rest⟩ := by
  have hdata : c.unpadded.length ≤ left := by
    rw [Chunk.length_bytes] at h
    rw [Chunk.length_unpadded]
    omega
  have hbytes : c.bytes ++ rest = c.unpadded ++ (c.pad ++ rest) := List.append_assoc _ _ _
  simp only [walk, hbytes, Chunk.next_unpadded hdata, Chunk.read_data hdata, hvisit, Chunk.skip_data h]

/-- The walk ends at a chunk; what follows its data does not matter. -/
theorem walk_found {s : σ} {b : β} {c : Chunk} {rest : Bytes} {left fuel : ℕ}
    (hvisit : visit s c.name c.data.length c.data = .ok (.inr b)) (h : c.unpadded.length ≤ left) :
    walk visit ended outside (fuel + 1) s ⟨left, c.unpadded ++ rest⟩ = .ok b := by
  simp only [walk, Chunk.next_unpadded h, Chunk.read_data h, hvisit]

/-- **Chunks are passed over.** -/
theorem walk_chunks {s t : σ} {cs : List Chunk} {rest : Bytes} {left fuel : ℕ}
    (hpass : Passes visit s cs t) (h : (writeChunks cs).length ≤ left) :
    walk visit ended outside (cs.length + fuel) s ⟨left, writeChunks cs ++ rest⟩ =
      walk visit ended outside fuel t ⟨left - (writeChunks cs).length, rest⟩ := by
  induction cs generalizing s left with
  | nil =>
    obtain rfl : s = t := hpass
    rw [List.length_nil, Nat.zero_add]
    rfl
  | cons c cs ih =>
    obtain ⟨u, hu, hpass⟩ := hpass
    have hbytes : writeChunks (c :: cs) = c.bytes ++ writeChunks cs := List.flatMap_cons
    rw [hbytes, List.length_append] at h ⊢
    rw [List.length_cons, Nat.add_right_comm, List.append_assoc, walk_pass hu (by omega),
      ih hpass (by omega), Nat.sub_sub]

/-- There are not more chunks than bytes. -/
theorem length_le_writeChunks (cs : List Chunk) : cs.length ≤ (writeChunks cs).length := by
  induction cs with
  | nil => exact Nat.zero_le _
  | cons c cs ih =>
    have hbytes : writeChunks (c :: cs) = c.bytes ++ writeChunks cs := List.flatMap_cons
    rw [hbytes, List.length_append, List.length_cons, Chunk.length_bytes]
    omega

end Walk

end SenseVoice.Lib.Riff
