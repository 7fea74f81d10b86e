/-
Which octets an extensions block is read from, and what is said of the others.

The reader takes an extension from everything that is left of the input, also
from beyond the announced end of the block, and charges it against the
announced length only afterwards. So three lengths meet in every round: what is
announced and not yet used up, what the extension says of itself, and what is
there. The verdict comes out all the same of where the extensions end.

A *tile* is an extension as it lies on the wire. The block is accepted where
tiles laid end to end come to exactly the announced length; it is refused as
overrun where the last of a run of tiles starts before the announced end and
ends behind it; and all else is too short. Since no tile is shorter than four
octets, a quarter of the announced length, rounded up, is as many rounds as the
reader takes.
-/
import DatagramHello.Proofs.Extension.Codec
import DatagramHello.Proofs.Wire.Fails

set_option autoImplicit false

namespace DatagramHello

variable {input rest : Bytes} {e : Error}

/-! ## Tiles

An extension names its kind by a tag, and several tags may have one number. A tile has the number
itself, so rows of tiles and the octets they are laid from tell each other. -/

namespace Extension

/-- An extension as it lies on the wire: the number of its kind, and its data behind their length.
-/
structure Tile where
  id : UInt16
  data : Bytes
  length_data : data.length ≤ 65535

namespace Tile

/-- The octets of the tile: its kind, the length of its data and the data. -/
def octets (t : Tile) : Bytes :=
  Bytes.bigEndian 2 t.id.toNat ++ (Bytes.bigEndian 2 t.data.length ++ t.data)

/-- Tiles laid end to end. -/
def laid (ts : List Tile) : Bytes := ts.flatMap octets

/-- The extension that a tile is read as: its kind goes by its name where it has one. -/
def extension (t : Tile) : Extension := ⟨Tag.ofId t.id.toNat, t.data, t.length_data⟩

/-- No tiles, no octets. -/
@[simp] theorem laid_nil : laid [] = [] := rfl

/-- Tiles are laid one after the other. -/
@[simp] theorem laid_cons (t : Tile) (ts : List Tile) : laid (t :: ts) = t.octets ++ laid ts := by
  simp [laid]

/-- The extension of a tile is written as the tile. -/
@[simp] theorem encode_extension (t : Tile) : t.extension.encode = t.octets := by
  have hid : (Tag.ofId t.id.toNat : ExtensionType).id = t.id.toNat := Tag.id_ofId t.id.toNat_lt
  rw [Extension.encode, Tag.encode, extension, hid, octets, List.append_assoc]
  rfl

/-- The extension of a tile has the size of the tile. -/
@[simp] theorem size_extension (t : Tile) : t.extension.size = t.octets.length := by
  rw [← encode_extension, length_encode]

/-- No tile is shorter than its kind and its length. -/
theorem four_le_length_octets (t : Tile) : 4 ≤ t.octets.length := by
  rw [← size_extension, size]
  omega

/-- The extension of a tile has a proper kind, since that was looked up for a number. -/
theorem proper_extension (t : Tile) : t.extension.type.Proper := Tag.proper_ofId t.id.toNat_lt

/-- Every extension that can be read is read from a tile. -/
theorem exists_extension_eq {x : Extension} (hproper : x.type.Proper) :
    ∃ t : Tile, t.extension = x := by
  have hid : (UInt16.ofNat x.type.id).toNat = x.type.id := Bytes.toNat_halfword x.type.id_lt
  refine ⟨⟨UInt16.ofNat x.type.id, x.data, x.length_data⟩, ?_⟩
  have hkind : (Tag.ofId x.type.id : ExtensionType) = x.type := hproper.canonical_eq
  rw [extension]
  simp only [hid, hkind]

/-- A row of extensions with proper kinds is the row of some tiles. -/
theorem exists_map_extension_eq {xs : List Extension} (hproper : ∀ x ∈ xs, x.type.Proper) :
    ∃ ts : List Tile, ts.map extension = xs := by
  induction xs with
  | nil => exact ⟨[], rfl⟩
  | cons x xs ih =>
    obtain ⟨hfirst, hothers⟩ := List.forall_mem_cons.mp hproper
    obtain ⟨t, rfl⟩ := exists_extension_eq hfirst
    obtain ⟨ts, rfl⟩ := ih hothers
    exact ⟨t :: ts, rfl⟩

/-- The extensions of tiles are written as the tiles. -/
theorem encodeEntries_map_extension (ts : List Tile) :
    Extensions.encodeEntries (ts.map extension) = laid ts := by
  induction ts with
  | nil => rfl
  | cons t ts ih =>
    rw [Extensions.encodeEntries] at ih ⊢
    rw [List.map_cons, List.flatMap_cons, ih, encode_extension, laid_cons]

end Tile

/-- An extension is read from a tile, and from nothing else. -/
theorem accepts_read_iff_tile {x : Extension} :
    read.Accepts input x rest ↔ ∃ t : Tile, t.extension = x ∧ input = t.octets ++ rest := by
  rw [accepts_read]
  constructor
  · rintro ⟨hproper, rfl⟩
    obtain ⟨t, rfl⟩ := Tile.exists_extension_eq hproper
    exact ⟨t, rfl, by rw [Tile.encode_extension]⟩
  · rintro ⟨t, rfl, rfl⟩
    exact ⟨t.proper_extension, by rw [Tile.encode_extension]⟩

/-- Nothing but running out of input is said of a single extension. -/
theorem onlyTruncates_read : read.OnlyTruncates := by
  refine Tag.onlyTruncates_read.bind fun type => (Reader.onlyTruncates_number 2).bind fun length =>
    (Reader.onlyTruncates_take _).bind fun field => Reader.OnlyTruncates.bind ?_
      fun _ => Reader.onlyTruncates_pure _
  -- a kind without a name is noted, and that does not fail
  rcases type with k | n
  · exact Reader.onlyTruncates_pure ()
  · exact Reader.onlyTruncates_note _

end Extension

/-! ## The loop

Every round takes a tile off the input and its length off what is left of the announced length. So
the three verdicts are found by induction over the announced length: with it used up the loop has
accepted, and before that it looks for another tile. -/

namespace Extensions

open Extension (Tile)
open Extension.Tile (laid)

/-- The input starts with tiles that do not come to the announced length before the last of them,
and come to more with it. -/
def Overruns (announced : Nat) (input : Bytes) : Prop :=
  ∃ (front : List Tile) (last : Tile) (more : Bytes),
    input = laid front ++ last.octets ++ more
      ∧ (laid front).length < announced
      ∧ announced < (laid front ++ last.octets).length

/-- The octets of the tiles that overrun are there. -/
theorem Overruns.lt_length {announced : Nat} (h : Overruns announced input) :
    announced < input.length := by
  obtain ⟨front, last, more, rfl, -, hover⟩ := h
  rw [List.length_append]
  omega

variable {announced remaining : Nat}

/-- **What the loop accepts.** Tiles that come to exactly what is left of the announced length. -/
theorem accepts_readEntries_iff_tiles {xs : List Extension} :
    (readEntries announced remaining).Accepts input xs rest
      ↔ ∃ ts : List Tile, input = laid ts ++ rest ∧ (laid ts).length = remaining
          ∧ xs = ts.map Tile.extension := by
  rw [accepts_readEntries]
  constructor
  · rintro ⟨hsize, hproper, rfl⟩
    obtain ⟨ts, rfl⟩ := Tile.exists_map_extension_eq hproper
    refine ⟨ts, ?_, ?_, rfl⟩
    · rw [Tile.encodeEntries_map_extension]
    · rw [← Tile.encodeEntries_map_extension, length_encodeEntries, hsize]
  · rintro ⟨ts, rfl, hlength, rfl⟩
    refine ⟨?_, ?_, ?_⟩
    · rw [← length_encodeEntries, Tile.encodeEntries_map_extension, hlength]
    · intro x hx
      obtain ⟨t, -, rfl⟩ := List.mem_map.mp hx
      exact t.proper_extension
    · rw [Tile.encodeEntries_map_extension]

/-- A round of the loop with something left to use up. -/
theorem fails_readEntries_round (hmore : remaining ≠ 0) :
    (readEntries announced remaining).Fails input e
      ↔ Extension.read.Fails input e
        ∨ ∃ (t : Tile) (mid : Bytes), input = t.octets ++ mid
            ∧ (t.octets.length ≤ remaining
                ∧ (readEntries announced (remaining - t.octets.length)).Fails mid e
              ∨ remaining < t.octets.length ∧ e = .framing .extensionOverrun) := by
  rw [readEntries, dif_neg hmore, Reader.fails_bind]
  refine or_congr_right ?_
  constructor
  · rintro ⟨x, mid, hread, hnext⟩
    obtain ⟨t, rfl, rfl⟩ := Extension.accepts_read_iff_tile.mp hread
    refine ⟨t, mid, rfl, ?_⟩
    by_cases hfits : t.extension.size ≤ remaining
    · rw [dif_pos hfits, Reader.fails_map] at hnext
      rw [Tile.size_extension] at hfits hnext
      exact .inl ⟨hfits, hnext⟩
    · rw [dif_neg hfits, Reader.fails_refuse] at hnext
      rw [Tile.size_extension] at hfits
      exact .inr ⟨Nat.not_le.mp hfits, hnext.symm⟩
  · rintro ⟨t, mid, rfl, hverdict⟩
    refine ⟨t.extension, mid, Extension.accepts_read_iff_tile.mpr ⟨t, rfl, rfl⟩, ?_⟩
    rcases hverdict with ⟨hfits, hnext⟩ | ⟨hover, rfl⟩
    · rw [← Tile.size_extension] at hfits hnext
      rw [dif_pos hfits, Reader.fails_map]
      exact hnext
    · rw [← Tile.size_extension] at hover
      rw [dif_neg (Nat.not_le.mpr hover), Reader.fails_refuse]

/-- With nothing left of the announced length the loop has nothing to blame. -/
theorem not_fails_readEntries_zero : ¬ (readEntries announced 0).Fails input e := by
  rw [readEntries, dif_pos rfl]
  exact Reader.not_fails_pure

/-- The loop says of an input that it is too short or that it overruns, and nothing else. -/
theorem eq_of_fails_readEntries (h : (readEntries announced remaining).Fails input e) :
    e = .truncated ∨ e = .framing .extensionOverrun := by
  induction remaining using Nat.strongRecOn generalizing input with
  | ind remaining ih =>
    by_cases hdone : remaining = 0
    · subst hdone
      exact absurd h not_fails_readEntries_zero
    · rw [fails_readEntries_round hdone] at h
      rcases h with hread | ⟨t, mid, -, ⟨hfits, hnext⟩ | ⟨-, hover⟩⟩
      · exact .inl (Extension.onlyTruncates_read _ _ hread)
      · have hpos := t.four_le_length_octets
        exact ih (remaining - t.octets.length) (by omega) hnext
      · exact .inr hover

/-- **Overrun.** The loop refuses exactly the inputs in which some tile starts before the end and
ends behind it. -/
theorem fails_readEntries_overrun_iff :
    (readEntries announced remaining).Fails input (.framing .extensionOverrun)
      ↔ Overruns remaining input := by
  -- on the announced octets still left; a tile that fits joins the front of the run
  induction remaining using Nat.strongRecOn generalizing input with
  | ind remaining ih =>
    by_cases hdone : remaining = 0
    · subst hdone
      constructor
      · intro h
        exact absurd h not_fails_readEntries_zero
      · rintro ⟨front, last, more, -, hfront, -⟩
        exact absurd hfront (Nat.not_lt_zero _)
    · rw [fails_readEntries_round hdone]
      constructor
      · rintro (hread | ⟨t, mid, rfl, ⟨hfits, hnext⟩ | ⟨hover, -⟩⟩)
        · exact absurd (Extension.onlyTruncates_read _ _ hread) (by simp)
        · have hpos := t.four_le_length_octets
          rw [ih (remaining - t.octets.length) (by omega)] at hnext
          obtain ⟨front, last, more, rfl, hfront, hlast⟩ := hnext
          refine ⟨t :: front, last, more, ?_, ?_, ?_⟩
          · simp only [Tile.laid_cons, List.append_assoc]
          · rw [Tile.laid_cons, List.length_append]
            omega
          · rw [List.length_append] at hlast
            rw [Tile.laid_cons, List.length_append, List.length_append]
            omega
        · refine ⟨[], t, mid, rfl, ?_, ?_⟩
          · exact Nat.pos_of_ne_zero hdone
          · rw [Tile.laid_nil, List.nil_append]
            exact hover
      · rintro ⟨front, last, more, rfl, hfront, hlast⟩
        right
        rcases front with _ | ⟨t, front⟩
        -- the first tile is the one that overruns
        · exact ⟨last, more, rfl, .inr ⟨hlast, rfl⟩⟩
        · have hpos := t.four_le_length_octets
          simp only [Tile.laid_cons, List.length_append] at hfront hlast
          refine ⟨t, laid front ++ last.octets ++ more, ?_, .inl ⟨by omega, ?_⟩⟩
          · simp only [Tile.laid_cons, List.append_assoc]
          · rw [ih (remaining - t.octets.length) (by omega)]
            refine ⟨front, last, more, rfl, ?_, ?_⟩
            · omega
            · rw [List.length_append]
              omega

/-- What is neither a tiling nor an overrun is too short. -/
theorem fails_readEntries_truncated_iff :
    (readEntries announced remaining).Fails input .truncated
      ↔ (¬ ∃ xs rest, (readEntries announced remaining).Accepts input xs rest)
        ∧ ¬ Overruns remaining input := by
  constructor
  · intro h
    refine ⟨?_, ?_⟩
    · rintro ⟨xs, rest, hread⟩
      exact hread.not_fails h
    · intro hover
      have hother : (readEntries announced remaining).Fails input (.framing .extensionOverrun) :=
        fails_readEntries_overrun_iff.mpr hover
      exact absurd (h.unique hother) (by simp)
  · rintro ⟨hread, hover⟩
    obtain ⟨e, he⟩ := Reader.exists_fails_of_not_accepts hread
    rcases eq_of_fails_readEntries he with rfl | rfl
    · exact he
    · exact absurd (fails_readEntries_overrun_iff.mp he) hover

/-- An input shorter than announced is too short, whatever its tiles say. -/
theorem fails_readEntries_of_length_lt (h : input.length < remaining) :
    (readEntries announced remaining).Fails input .truncated := by
  rw [fails_readEntries_truncated_iff]
  refine ⟨?_, ?_⟩
  · rintro ⟨xs, rest, hread⟩
    obtain ⟨ts, rfl, hlength, -⟩ := accepts_readEntries_iff_tiles.mp hread
    rw [List.length_append] at h
    omega
  · intro hover
    have hthere := hover.lt_length
    omega

/-! ## The rounds

The loop is written without a bound on its rounds. Given such a bound it says the same as long as
the bound is a quarter of what is left, rounded up. -/

/-- The loop, given so many rounds: `none` stands for an input on which it would go on. -/
def readEntriesWithin (announced : Nat) : Nat → Nat → Reader (Option (List Extension))
  | rounds, remaining =>
    if remaining = 0 then pure (some [])
    else
      match rounds with
      | 0 => pure none
      | rounds + 1 => do
        let x ← Extension.read
        if x.size ≤ remaining then
          (fun others => others.map (x :: ·)) <$>
            readEntriesWithin announced rounds (remaining - x.size)
        else
          Reader.refuse (.extensionOverrun x.type announced (x.size - remaining))
            (.framing .extensionOverrun)

/-- A round uses up four octets at least, so the loop is done before a quarter of them in rounds. -/
theorem readEntriesWithin_eq {rounds : Nat} (h : remaining ≤ 4 * rounds) :
    readEntriesWithin announced rounds remaining = some <$> readEntries announced remaining := by
  induction rounds generalizing remaining with
  | zero =>
    have hdone : remaining = 0 := by omega
    rw [readEntriesWithin, if_pos hdone, readEntries, dif_pos hdone]
    rfl
  | succ rounds ih =>
    rw [readEntriesWithin, readEntries]
    by_cases hdone : remaining = 0
    · rw [if_pos hdone, dif_pos hdone]
      rfl
    · rw [if_neg hdone, dif_neg hdone, Reader.map_bind]
      refine bind_congr fun x => ?_
      by_cases hfits : x.size ≤ remaining
      · have hsize : 4 ≤ x.size := by
          rw [Extension.size]
          omega
        rw [if_pos hfits, dif_pos hfits, ih (by omega)]
        simp only [Reader.map_map]
        rfl
      · rw [if_neg hfits, dif_neg hfits]
        rfl

/-! ## The block

The announced length of two octets, and the loop with all of it left. -/

/-- An announced length is read, and the verdict is the loop's. -/
theorem accepts_announced (announced : UInt16) :
    (Reader.number 2).Accepts (Bytes.bigEndian 2 announced.toNat ++ input)
      ⟨announced.toNat, announced.toNat_lt⟩ input :=
  Reader.accepts_number.mpr rfl

/-- Behind the announced length, the block is what the loop accepts. -/
theorem accepts_read_announced {announced : UInt16} {xs : Extensions} :
    read.Accepts (Bytes.bigEndian 2 announced.toNat ++ input) xs rest
      ↔ (readEntries announced.toNat announced.toNat).Accepts input xs.entries rest := by
  rw [read, Reader.accepts_bind_of_accepts (accepts_announced announced), Reader.accepts_bind]
  constructor
  · rintro ⟨entries, left, hread, hpure⟩
    rw [Reader.accepts_pure] at hpure
    obtain ⟨rfl, rfl⟩ := hpure
    exact hread
  · intro hread
    exact ⟨xs.entries, rest, hread, Reader.accepts_pure.mpr ⟨rfl, rfl⟩⟩

/-- Behind the announced length, the block is blamed for what the loop blames. -/
theorem fails_read_announced {announced : UInt16} :
    read.Fails (Bytes.bigEndian 2 announced.toNat ++ input) e
      ↔ (readEntries announced.toNat announced.toNat).Fails input e := by
  rw [read, Reader.fails_bind_of_accepts (accepts_announced announced), Reader.fails_bind]
  simp only [Reader.not_fails_pure, and_false, exists_false, or_false]

/-- Nothing is said of a block but that it is too short or that an extension overruns it. -/
theorem eq_of_fails_read (h : read.Fails input e) :
    e = .truncated ∨ e = .framing .extensionOverrun := by
  unfold read at h
  rw [Reader.fails_bind, Reader.fails_number] at h
  rcases h with ⟨-, rfl⟩ | ⟨announced, mid, -, hloop⟩
  · exact .inl rfl
  · rw [Reader.fails_bind] at hloop
    rcases hloop with hloop | ⟨xs, left, -, hpure⟩
    · exact eq_of_fails_readEntries hloop
    · exact absurd hpure Reader.not_fails_pure

/-- **The verdicts on a block.** Behind an announced length a block is accepted exactly where tiles
come to that length, and then its extensions are those of the tiles, in order and with repetitions.
It is refused as overrun exactly where a run of tiles passes over the announced end, and everything
else is too short, in particular what is shorter than announced. The loop takes no more rounds than
a quarter of the announced length, rounded up. As a whole input a block is refused for octets behind
it exactly where it is accepted with octets left. -/
theorem block_verdicts :
    (∀ (announced : UInt16) (d : Bytes),
      (∀ xs rest, read.Accepts (Bytes.bigEndian 2 announced.toNat ++ d) xs rest
          ↔ ∃ ts : List Tile, d = laid ts ++ rest ∧ (laid ts).length = announced.toNat
              ∧ xs.entries = ts.map Tile.extension)
      ∧ (read.Fails (Bytes.bigEndian 2 announced.toNat ++ d) (.framing .extensionOverrun)
          ↔ Overruns announced.toNat d)
      ∧ (read.Fails (Bytes.bigEndian 2 announced.toNat ++ d) .truncated
          ↔ (¬ ∃ (ts : List Tile) (rest : Bytes),
                d = laid ts ++ rest ∧ (laid ts).length = announced.toNat)
            ∧ ¬ Overruns announced.toNat d)
      ∧ (d.length < announced.toNat →
          read.Fails (Bytes.bigEndian 2 announced.toNat ++ d) .truncated)
      ∧ readEntriesWithin announced.toNat ((announced.toNat + 3) / 4) announced.toNat
          = some <$> readEntries announced.toNat announced.toNat)
    ∧ (∀ input : Bytes, input.length < 2 → read.Fails input .truncated)
    ∧ (∀ input e, read.Fails input e → e = .truncated ∨ e = .framing .extensionOverrun)
    ∧ FramingFault.extensionOverrun.words = "extension overruns declared length"
    ∧ (∀ input xs, (decode input).value = .ok xs ↔ read.Accepts input xs [])
    ∧ (∀ input e, (decode input).value = .error e
          ↔ read.Fails input e
            ∨ e = .framing .bytesAfterExtensions
              ∧ ∃ xs rest, read.Accepts input xs rest ∧ rest ≠ []) := by
  refine ⟨?_, ?_, ?_, rfl, ?_, ?_⟩
  · intro announced d
    refine ⟨?_, ?_, ?_, ?_, ?_⟩
    · intro xs rest
      rw [accepts_read_announced, accepts_readEntries_iff_tiles]
    · rw [fails_read_announced, fails_readEntries_overrun_iff]
    · rw [fails_read_announced, fails_readEntries_truncated_iff]
      refine and_congr_left fun _ => not_congr ?_
      simp only [accepts_readEntries_iff_tiles]
      constructor
      · rintro ⟨xs, rest, ts, htiles, hlength, -⟩
        exact ⟨ts, rest, htiles, hlength⟩
      · rintro ⟨ts, rest, htiles, hlength⟩
        exact ⟨_, rest, ts, htiles, hlength, rfl⟩
    · intro hshort
      rw [fails_read_announced]
      exact fails_readEntries_of_length_lt hshort
    · apply readEntriesWithin_eq
      omega
  · intro input hshort
    unfold read
    rw [Reader.fails_bind, Reader.fails_number]
    exact .inl ⟨hshort, rfl⟩
  · intro input e h
    exact eq_of_fails_read h
  · intro input xs
    exact Reader.whole_eq_ok_iff
  · intro input e
    rw [decode, Reader.whole_eq_error_iff]
    refine or_congr_right ?_
    constructor
    · rintro ⟨xs, rest, hread, hleft, rfl⟩
      exact ⟨rfl, xs, rest, hread, hleft⟩
    · rintro ⟨rfl, xs, rest, hread, hleft⟩
      exact ⟨xs, rest, hread, hleft, rfl⟩

/-- A list of curves in two octets. -/
def curvesTile : Tile := ⟨10, [0xaa, 0xbb], by decide⟩

/-- The six octets of one tile are a block if six are announced. Five are overrun, sixteen are more
than there are, and a single octet announces nothing. -/
theorem block_verdicts_curvesTile :
    read.Accepts ([0, 6] ++ curvesTile.octets) ⟨[curvesTile.extension]⟩ []
      ∧ read.Fails ([0, 5] ++ curvesTile.octets) (.framing .extensionOverrun)
      ∧ read.Fails ([0, 16] ++ curvesTile.octets) .truncated
      ∧ read.Fails [0] .truncated
      ∧ (decode ([0, 6] ++ curvesTile.octets ++ [7])).value
          = .error (.framing .bytesAfterExtensions) := by
  obtain ⟨hblock, hshort, herrors, -, -, hdecode⟩ := block_verdicts
  obtain ⟨hsix, -, -, -, -⟩ := hblock 6 curvesTile.octets
  obtain ⟨hseven, -, -, -, -⟩ := hblock 6 (curvesTile.octets ++ [7])
  obtain ⟨-, hfive, -, -, -⟩ := hblock 5 curvesTile.octets
  obtain ⟨-, -, -, hsixteen, -⟩ := hblock 16 curvesTile.octets
  have hnothing : read.Fails [0] .truncated := hshort [0] (by decide)
  refine ⟨?_, ?_, hsixteen (by decide), ?_, ?_⟩
  · exact (hsix _ _).mpr ⟨[curvesTile], by simp, by decide, rfl⟩
  · exact hfive.mpr ⟨[], curvesTile, [], by simp, by decide, by decide⟩
  -- of the two things that may be said of it, it is not the overrun
  · rcases herrors [0] _ hnothing with h | h
    · exact hnothing
    · contradiction
  · refine (hdecode _ _).mpr (.inr ⟨rfl, ⟨[curvesTile.extension]⟩, [7], ?_, by decide⟩)
    exact (hseven _ _).mpr ⟨[curvesTile], by simp, by decide, rfl⟩

end Extensions

end DatagramHello
