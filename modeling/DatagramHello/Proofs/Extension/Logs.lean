/-
What is logged of an extensions block.

An extension whose kind has no name is noted as soon as its data have been read,
and only then is it charged against the announced length. So the loop notes what
it read and not what it kept: an extension that overruns the block is noted
before it is refused, and what was noted stays if the input ends in the middle
of the next one.

Which extensions these are can be said of the octets alone. They are the tiles
laid from the start, one after the other, each of which begins before the
announced end, and the run of them stops at the announced end or where no tile
is (`Met`). On every input there is such a run, and along it the loop is told
the notes of the tiles and nothing else but that the last one overruns.
-/
import DatagramHello.Proofs.Extension.Tiling
import DatagramHello.Proofs.Wire.Logs

set_option autoImplicit false

namespace DatagramHello

open Reader (Told)

variable {input rest : Bytes} {e : Error}

namespace Extension

/-- The event of an extension whose kind has no name. -/
def note? (x : Extension) : Option Event :=
  match x.type with
  | .registered _ => none
  | .unassigned id => some (.unassignedExtension id.val)

/-- The events of extensions, in their order. -/
def notes (xs : List Extension) : List Event := xs.filterMap note?

/-- The notes of a row of extensions are made extension by extension. -/
theorem notes_cons (x : Extension) (xs : List Extension) :
    notes (x :: xs) = x.note?.toList ++ notes xs := by
  rw [notes, List.filterMap_cons]
  rcases x.note? with _ | event
  · rfl
  · rfl

/-- Notes are made at the trace level. -/
theorem level_of_mem_notes {xs : List Extension} {event : Event} (h : event ∈ notes xs) :
    event.level = .trace := by
  obtain ⟨x, -, hnote⟩ := List.mem_filterMap.mp h
  unfold note? at hnote
  split at hnote
  · contradiction
  · cases hnote
    rfl

/-- An extension that was read is noted. -/
theorem read_apply_of_accepts {x : Extension} (h : read.Accepts input x rest) :
    read input = ⟨x.note?.toList, .ok (x, rest)⟩ := by
  simp only [read, Reader.accepts_bind] at h
  obtain ⟨type, _, htype, length, _, hlength, field, mid, hfield, u, _, hnote, hpure⟩ := h
  rw [read, Tag.mute_read.bind_of_accepts htype, (Reader.mute_number 2).bind_of_accepts hlength,
    (Reader.mute_take _).bind_of_accepts hfield]
  obtain rfl := accepts_noteKind.mp hnote
  obtain ⟨rfl, rfl⟩ := Reader.accepts_pure.mp hpure
  rcases type with k | id
  · rfl
  · rfl

/-- An extension that was not read is not. -/
theorem read_apply_of_fails (h : read.Fails input e) : read input = ⟨[], .error .truncated⟩ := by
  rw [← onlyTruncates_read _ _ h]
  rw [read, Reader.fails_bind] at h
  rw [read]
  rcases h with h | ⟨type, _, htype, h⟩
  · exact Tag.mute_read.bind_of_fails h
  rw [Tag.mute_read.bind_of_accepts htype]
  rw [Reader.fails_bind] at h
  rcases h with h | ⟨length, _, hlength, h⟩
  · exact (Reader.mute_number 2).bind_of_fails h
  rw [(Reader.mute_number 2).bind_of_accepts hlength]
  rw [Reader.fails_bind] at h
  rcases h with h | ⟨field, _, hfield, h⟩
  · exact (Reader.mute_take _).bind_of_fails h
  -- behind the data nothing fails any more
  rw [Reader.fails_bind] at h
  rcases h with h | ⟨u, _, -, h⟩
  · rcases type with k | id
    · exact absurd h Reader.not_fails_pure
    · exact absurd h Reader.not_fails_note
  · exact absurd h Reader.not_fails_pure

end Extension

namespace Extensions

open Extension (Tile notes notes_cons)
open Extension.Tile (laid)

variable {announced remaining : Nat} {t : Tile} {ts : List Tile}

/-! ## The tiles that are met

The loop reads on until the announced length is used up, exceeded or cut short. Which tiles it reads
on the way depends only on the octets and on the announced length. -/

/-- From the start of the input `ts` are the tiles that begin before the announced end, as far as
there are any. -/
def Met (announced : Nat) (input : Bytes) (ts : List Tile) : Prop :=
  ∃ rest, input = laid ts ++ rest
    ∧ (∀ front t back, ts = front ++ t :: back → (laid front).length < announced)
    ∧ (announced ≤ (laid ts).length ∨ ∀ (t : Tile) (more : Bytes), rest ≠ t.octets ++ more)

/-- No tile is met where nothing was announced or where the input does not begin with one. -/
theorem met_nil_iff :
    Met announced input []
      ↔ announced = 0 ∨ ∀ (t : Tile) (more : Bytes), input ≠ t.octets ++ more := by
  constructor
  · rintro ⟨rest, rfl, -, hend⟩
    rcases hend with hend | hend
    · exact .inl (Nat.le_zero.mp hend)
    · exact .inr hend
  · intro h
    refine ⟨input, rfl, ?_, ?_⟩
    · intro front t back hnil
      simp at hnil
    · rcases h with rfl | h
      · exact .inl (Nat.le_refl _)
      · exact .inr h

/-- A tile that is met is charged against the announced length, and the others are met behind it. -/
theorem met_cons_iff :
    Met announced input (t :: ts)
      ↔ 0 < announced
        ∧ ∃ more, input = t.octets ++ more ∧ Met (announced - t.octets.length) more ts := by
  constructor
  · rintro ⟨rest, rfl, hbegin, hend⟩
    refine ⟨hbegin [] t ts rfl, laid ts ++ rest, ?_, rest, rfl, ?_, ?_⟩
    · rw [Tile.laid_cons, List.append_assoc]
    · intro front t' back hts
      have hlater := hbegin (t :: front) t' back (by rw [hts]; rfl)
      rw [Tile.laid_cons, List.length_append] at hlater
      omega
    · rw [Tile.laid_cons, List.length_append] at hend
      refine hend.imp_left fun hreached => ?_
      omega
  · rintro ⟨hpos, more, rfl, rest, rfl, hbegin, hend⟩
    refine ⟨rest, ?_, ?_, ?_⟩
    · rw [Tile.laid_cons, List.append_assoc]
    · intro front t' back hts
      rcases front with _ | ⟨t'', front⟩
      · exact hpos
      · obtain ⟨rfl, hothers⟩ := List.cons.inj hts
        have hlater := hbegin front t' back hothers
        rw [Tile.laid_cons, List.length_append]
        omega
    · rw [Tile.laid_cons, List.length_append]
      refine hend.imp_left fun hreached => ?_
      omega

/-- Every input has a run of tiles that are met, and it ends because the octets do. -/
theorem exists_met (announced : Nat) (input : Bytes) : ∃ ts, Met announced input ts := by
  induction announced using Nat.strongRecOn generalizing input with
  | ind announced ih =>
    by_cases hdone : announced = 0
    · exact ⟨[], met_nil_iff.mpr (.inl hdone)⟩
    by_cases htile : ∃ (t : Tile) (more : Bytes), input = t.octets ++ more
    · obtain ⟨t, more, rfl⟩ := htile
      have hpos := t.four_le_length_octets
      obtain ⟨ts, hts⟩ := ih (announced - t.octets.length) (by omega) more
      exact ⟨t :: ts, met_cons_iff.mpr ⟨by omega, more, rfl, hts⟩⟩
    · refine ⟨[], met_nil_iff.mpr (.inr ?_)⟩
      intro t more hinput
      exact htile ⟨t, more, hinput⟩

/-- Tiles that come to the announced length are met. -/
theorem met_laid (ts : List Tile) (rest : Bytes) : Met (laid ts).length (laid ts ++ rest) ts := by
  refine ⟨rest, rfl, ?_, .inl (Nat.le_refl _)⟩
  rintro front t back rfl
  have hpos := t.four_le_length_octets
  simp only [laid, List.flatMap_append, List.flatMap_cons, List.length_append]
  omega

/-! ## The loop

Each round reads a tile, makes its note, and refuses it or goes on. The refusal of a tile that
overruns is the only other event. -/

/-- Along the tiles that are met, the loop logs their notes. -/
theorem told_readEntries (h : Met remaining input ts) :
    Told (notes (ts.map Tile.extension)) (readEntries announced remaining input) := by
  induction ts generalizing remaining input with
  | nil =>
    rw [readEntries]
    by_cases hdone : remaining = 0
    · rw [dif_pos hdone]
      exact .read _
    · have htile : ¬ ∃ x rest, Extension.read.Accepts input x rest := by
        rintro ⟨x, rest, hread⟩
        obtain ⟨t, -, hinput⟩ := Extension.accepts_read_iff_tile.mp hread
        exact (met_nil_iff.mp h).resolve_left hdone t rest hinput
      obtain ⟨e, hfails⟩ := Reader.exists_fails_of_not_accepts htile
      rw [dif_neg hdone, Reader.bind_apply, Extension.read_apply_of_fails hfails]
      exact .unsaid _ not_false
  | cons t ts ih =>
    obtain ⟨hpos, more, rfl, hts⟩ := met_cons_iff.mp h
    have hread : Extension.read.Accepts (t.octets ++ more) t.extension more :=
      Extension.accepts_read_iff_tile.mpr ⟨t, rfl, rfl⟩
    rw [readEntries, dif_neg (Nat.ne_of_gt hpos), List.map_cons, notes_cons]
    refine Told.bind_of_apply (Extension.read_apply_of_accepts hread) ?_
    rw [Tile.size_extension]
    by_cases hfits : t.octets.length ≤ remaining
    · rw [dif_pos hfits]
      exact (ih hts).map
    -- a tile that overruns is the last one
    · rw [dif_neg hfits]
      have hused : remaining - t.octets.length = 0 := by omega
      rcases ts with _ | ⟨t', ts⟩
      · exact Reader.told_refuse rfl more
      · rw [hused] at hts
        exact absurd (met_cons_iff.mp hts).1 (Nat.lt_irrefl 0)

/-- Behind a length that is read, the block is told what its loop is told. -/
theorem told_read {announced : Fin (Bytes.span 2)}
    (hannounced : (Reader.number 2).Accepts input announced rest) (h : Met announced.val rest ts) :
    Told (notes (ts.map Tile.extension)) (read input) := by
  rw [read, (Reader.mute_number 2).bind_of_accepts hannounced]
  exact (told_readEntries h).bind fun _ _ _ => (Reader.mute_pure _).told _

/-- Of a block that was read, what is logged is what was read. -/
theorem told_read_of_accepts {xs : Extensions} (h : read.Accepts input xs rest) :
    Told (notes xs.entries) (read input) := by
  simp only [read, Reader.accepts_bind] at h
  obtain ⟨announced, mid, hannounced, entries, _, hloop, hpure⟩ := h
  obtain ⟨rfl, rfl⟩ := Reader.accepts_pure.mp hpure
  obtain ⟨ts, rfl, hlength, rfl⟩ := accepts_readEntries_iff_tiles.mp hloop
  refine told_read hannounced ?_
  rw [← hlength]
  exact met_laid ts _

end Extensions

end DatagramHello
