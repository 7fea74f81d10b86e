/-
The extensions block and its octets.

`Extensions.encode` gives the octets of a block, and the two sides of the codec
are compared with it: a block that fits its 16-bit length is written as those
octets, and those octets, in front of anything, are what the reader accepts as
the block. The reader's loop charges every extension against the octets still
announced; the invariant behind it is that the entries read so far and the rest
of the announced length add up to the announced length, which the recursion
states as `totalSize xs = remaining`.
-/
import DatagramHello.Extension.Block
import DatagramHello.Proofs.Wire.Appends
import DatagramHello.Proofs.Wire.Canonical

set_option autoImplicit false

namespace DatagramHello

/-! ## One extension

An extension holds its data with the proof that they fit, so writing it cannot fail and the two
sides of its codec need no condition but a proper kind. -/

namespace Extension

/-- The extension as it is read back: its kind by name where it has one. -/
def canonical (x : Extension) : Extension := { x with type := x.type.canonical }

/-- Making the kind proper does not change how many octets an extension takes. -/
@[simp] theorem size_canonical (x : Extension) : x.canonical.size = x.size := rfl

/-- Making the kind proper does not change the octets of an extension. -/
@[simp] theorem encode_canonical (x : Extension) : x.canonical.encode = x.encode := by
  simp [canonical, encode]

/-- The size of an extension is the number of its octets. -/
@[simp] theorem length_encode (x : Extension) : x.encode.length = x.size := by
  simp [encode, size, Registry.width]
  omega

/-- Noting an unknown kind takes nothing off the input. -/
theorem accepts_noteKind {type : ExtensionType} {input rest : Bytes} {u : Unit} :
    (noteKind type).Accepts input u rest ↔ input = rest := by
  rcases type with k | n
  · simp [noteKind]
  · simp [noteKind]

/-- An extension is read exactly where its octets stand. -/
theorem accepts_read {input rest : Bytes} {x : Extension} :
    read.Accepts input x rest ↔ x.type.Proper ∧ input = x.encode ++ rest := by
  simp only [read, Reader.accepts_bind, Tag.accepts_read, Reader.accepts_number,
    Reader.accepts_take, accepts_noteKind, Reader.accepts_pure]
  constructor
  · rintro ⟨type, _, ⟨hproper, rfl⟩, length, _, rfl, field, _, rfl, _, _, rfl, rfl, rfl⟩
    refine ⟨hproper, ?_⟩
    simp [encode, field.length_bytes]
  · rintro ⟨hproper, rfl⟩
    refine ⟨x.type, _, ⟨hproper, ?_⟩, ⟨x.data.length, ?_⟩, _, rfl, ⟨x.data, rfl⟩, _, rfl, (), _,
      rfl, rfl, rfl⟩
    · simp [encode]
    · exact Nat.lt_of_le_of_lt x.length_data (by decide)

/-- A source that appends its data puts kind and announced length in front of it. -/
theorem Source.appends_write {s : Source} {data : Bytes} (hfits : s.announced ≤ 65535)
    (hdata : ∀ out, s.writeData out = out.append data) :
    s.write.Appends (s.type.encode ++ Bytes.bigEndian 2 s.announced ++ data) := by
  rw [Source.write, if_neg (Nat.not_lt.mpr hfits)]
  refine (Writer.appends_put _).andThen ?_
  intro out
  simp only [hdata]

/-- An extension that was built is always written, since its data fit. -/
theorem appends_write (x : Extension) : x.write.Appends x.encode :=
  Source.appends_write (s := x.source) x.length_data fun _ => rfl

end Extension

/-! ## The block

A block holds any number of extensions, and its 16-bit length may be too short for them. The reader
charges each extension against the length that was announced, and what it has read adds up to it. -/

namespace Extensions

/-- Every kind in the block goes by its name where it has one. -/
def Proper (xs : Extensions) : Prop := ∀ x ∈ xs.entries, x.type.Proper

/-- The block with every kind proper. -/
def canonical (xs : Extensions) : Extensions := ⟨xs.entries.map Extension.canonical⟩

/-- The extensions one after the other, without the length in front. -/
def encodeEntries (xs : List Extension) : Bytes := xs.flatMap Extension.encode

/-- The length of the block and its extensions. -/
def encode (xs : Extensions) : Bytes :=
  Bytes.bigEndian 2 xs.length ++ encodeEntries xs.entries

/-- A block without extensions is the empty block. -/
theorem eq_empty_of_isEmpty {xs : Extensions} (h : xs.isEmpty) : xs = {} := by
  rcases xs with ⟨entries⟩
  have hnil : entries = [] := List.isEmpty_iff.mp h
  rw [hnil]

/-- The empty block is written as a length of zero. -/
theorem encode_of_isEmpty {xs : Extensions} (h : xs.isEmpty) : xs.encode = [0, 0] := by
  rw [eq_empty_of_isEmpty h]
  rfl

/-- The sizes of extensions add up to the number of their octets. -/
theorem length_encodeEntries (xs : List Extension) :
    (encodeEntries xs).length = totalSize xs := by
  induction xs with
  | nil => rfl
  | cons x xs ih =>
    rw [encodeEntries, List.flatMap_cons, List.length_append, Extension.length_encode, totalSize,
      ← ih, encodeEntries]

/-- The size of one extension repeated. -/
theorem totalSize_replicate (n : Nat) (x : Extension) :
    totalSize (List.replicate n x) = n * x.size := by
  induction n with
  | zero =>
    rw [Nat.zero_mul]
    rfl
  | succ n ih => rw [List.replicate_succ, totalSize, ih, Nat.succ_mul, Nat.add_comm]

/-- The encoded length of a block is the number of its octets. -/
@[simp] theorem length_encode (xs : Extensions) : xs.encode.length = xs.encodedLength := by
  simp [encode, encodedLength, length_encodeEntries, length]

/-- Making a block proper does not change its length. -/
@[simp] theorem length_canonical (xs : Extensions) : xs.canonical.length = xs.length := by
  simp only [length, canonical]
  induction xs.entries with
  | nil => rfl
  | cons x xs ih => simp [totalSize, ih]

/-- Making a block proper does not empty it. -/
@[simp] theorem isEmpty_canonical (xs : Extensions) : xs.canonical.isEmpty = xs.isEmpty := by
  simp [isEmpty, canonical]

/-- Making a block proper does not change its octets. -/
@[simp] theorem encode_canonical (xs : Extensions) : xs.canonical.encode = xs.encode := by
  have hentries : encodeEntries xs.canonical.entries = encodeEntries xs.entries := by
    simp [encodeEntries, canonical, List.flatMap_map]
  rw [encode, hentries, length_canonical, encode]

/-- The canonical form of a block is proper. -/
theorem proper_canonical (xs : Extensions) : xs.canonical.Proper := by
  intro x hx
  obtain ⟨y, -, rfl⟩ := List.mem_map.mp hx
  exact Tag.proper_canonical y.type

/-- A proper block is its own canonical form. -/
theorem Proper.canonical_eq {xs : Extensions} (h : xs.Proper) : xs.canonical = xs := by
  rcases xs with ⟨entries⟩
  have hsame : ∀ x ∈ entries, x.canonical = x := by
    intro x hx
    rw [Extension.canonical, (h x hx).canonical_eq]
  have hmap : entries.map Extension.canonical = entries.map (fun x => x) :=
    List.map_congr_left hsame
  rw [canonical, hmap, List.map_id']

/-- The loop reads exactly the extensions that use up what is left of the announced length. -/
theorem accepts_readEntries {announced remaining : Nat} {input rest : Bytes}
    {xs : List Extension} :
    (readEntries announced remaining).Accepts input xs rest
      ↔ totalSize xs = remaining ∧ (∀ x ∈ xs, x.type.Proper)
        ∧ input = encodeEntries xs ++ rest := by
  -- on the announced octets still left, as the loop itself
  induction remaining using Nat.strongRecOn generalizing input xs with
  | ind remaining ih =>
    rw [readEntries]
    by_cases hdone : remaining = 0
    -- nothing is left to use up, and no extension is as short as that
    · rw [dif_pos hdone, Reader.accepts_pure]
      constructor
      · rintro ⟨rfl, rfl⟩
        exact ⟨hdone.symm, by simp, rfl⟩
      · rintro ⟨hsize, -, rfl⟩
        rcases xs with _ | ⟨x, xs⟩
        · exact ⟨rfl, rfl⟩
        · have := x.size_pos
          simp only [totalSize] at hsize
          omega
    · rw [dif_neg hdone, Reader.accepts_bind]
      simp only [Extension.accepts_read]
      constructor
      · rintro ⟨x, mid, ⟨hproper, rfl⟩, hnext⟩
        -- an extension that goes on beyond the announced end is refused
        by_cases hfits : x.size ≤ remaining
        · have := x.size_pos
          rw [dif_pos hfits, Reader.accepts_map] at hnext
          obtain ⟨ys, hys, rfl⟩ := hnext
          -- what is left is less by the size of the first, which is not 0
          obtain ⟨hsize, hall, rfl⟩ := (ih _ (by omega)).mp hys
          refine ⟨?_, ?_, ?_⟩
          · simp only [totalSize]
            omega
          · exact List.forall_mem_cons.mpr ⟨hproper, hall⟩
          · simp [encodeEntries]
        · rw [dif_neg hfits] at hnext
          exact absurd hnext Reader.not_accepts_refuse
      · rintro ⟨hsize, hall, rfl⟩
        rcases xs with _ | ⟨x, xs⟩
        · exact absurd hsize.symm hdone
        · have := x.size_pos
          simp only [totalSize] at hsize
          obtain ⟨hproper, hrest⟩ := List.forall_mem_cons.mp hall
          refine ⟨x, encodeEntries xs ++ rest, ⟨hproper, by simp [encodeEntries]⟩, ?_⟩
          rw [dif_pos (by omega), Reader.accepts_map]
          exact ⟨xs, (ih _ (by omega)).mpr ⟨by omega, hrest, rfl⟩, rfl⟩

/-- A block is read exactly where its octets stand. -/
theorem accepts_read {input rest : Bytes} {xs : Extensions} :
    read.Accepts input xs rest
      ↔ xs.Proper ∧ xs.length ≤ 65535 ∧ input = xs.encode ++ rest := by
  simp only [read, Reader.accepts_bind, Reader.accepts_number, accepts_readEntries,
    Reader.accepts_pure]
  constructor
  · rintro ⟨announced, _, rfl, entries, _, ⟨hsize, hproper, rfl⟩, rfl, rfl⟩
    -- the announced length has 16 bits, and the entries use up exactly that much
    have := announced.isLt
    have hspan : Bytes.span 2 = 65536 := rfl
    refine ⟨hproper, ?_, ?_⟩
    · simp only [length]
      omega
    · simp [encode, length, hsize]
  · rintro ⟨hproper, hfits, rfl⟩
    refine ⟨⟨xs.length, Nat.lt_of_le_of_lt hfits (by decide)⟩, _, ?_, xs.entries, rest,
      ⟨rfl, hproper, rfl⟩, rfl, rfl⟩
    simp [encode]

/-- A block has at least the octets of its length. -/
theorem ne_nil_of_accepts_read {input rest : Bytes} {xs : Extensions}
    (h : read.Accepts input xs rest) : input ≠ [] := by
  obtain ⟨-, -, rfl⟩ := accepts_read.mp h
  simp [encode, Bytes.bigEndian]

/-- The extensions of a block are written one after the other, and none of them fails. -/
theorem appends_writeEntries (xs : List Extension) :
    (writeEntries xs).Appends (encodeEntries xs) := by
  induction xs with
  | nil => exact Writer.appends_skip
  | cons x xs ih =>
    rw [writeEntries, encodeEntries, List.flatMap_cons]
    exact x.appends_write.andThen ih

/-- **The writer.** A block that fits its 16-bit length is written as its octets. -/
theorem appends_write {xs : Extensions} (h : xs.length ≤ 65535) : xs.write.Appends xs.encode := by
  rw [write, if_neg (Nat.not_lt.mpr h)]
  exact (Writer.appends_put _).andThen (appends_writeEntries xs.entries)

end Extensions

end DatagramHello
