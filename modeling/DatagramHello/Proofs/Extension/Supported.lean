/-
The lists of curves and of point formats, as values and as extensions.

Each of the two lists has a type of its own, and a value of it can be written
as an extension. An extension is read as a value if it is of the right kind, by
its name and not only by its number, and if its data are one such list and
nothing else. What is read of a list is proper, so a value that a caller made
may come back as another one, with the same octets; this is all that the way
there and back changes.

`Typed` holds what the two have in common, and its two lemmas are the two
directions: what was read is captured as the extension it was read from, and
what was captured is read as the canonical value.
-/
import DatagramHello.Extension.SupportedCurves
import DatagramHello.Extension.SupportedFormats
import DatagramHello.Proofs.Extension.Container

set_option autoImplicit false

namespace DatagramHello

open Bytes (bigEndian)

/-! ## Extensions of a type of their own

An extension names its kind and holds octets. A type with a kind of its own reads these octets, as a
whole, and is written by capturing a source. -/

namespace Extension

variable {α : Type} {x : Extension} {a : α}

/-- Only an extension of the expected kind is looked into, and its data have to be the value and
nothing else. -/
theorem interpret_eq_ok_iff {expected : ExtensionType} {r : Reader α} {excess : FramingFault} :
    (x.interpret expected r excess).value = .ok a ↔ x.type = expected ∧ r.Accepts x.data a [] := by
  unfold interpret
  by_cases hkind : x.type = expected
  · rw [if_pos hkind, Reader.whole_eq_ok_iff]
    simp [hkind]
  · rw [if_neg hkind]
    simp [hkind]

/-- What a source adds to every buffer is its data. -/
theorem Source.data_of_append {s : Source} {bytes : Bytes}
    (h : ∀ out, s.writeData out = out.append bytes) : s.data = bytes := by
  rw [data, h, Buffer.toBytes_append, Buffer.toBytes_empty, List.nil_append]

/-- What is captured has the kind and the data of its source. -/
theorem Source.capture_eq_ok_iff {s : Source} :
    s.capture = .ok x ↔ x.type = s.type ∧ x.data = s.data := by
  obtain ⟨type, data, hdata⟩ := x
  rw [capture]
  by_cases hfits : s.data.length ≤ 65535
  · rw [ofData_of_le hfits]
    simp [eq_comm]
  -- data that are too long are those of no extension
  · rw [ofData_of_lt (Nat.not_le.mp hfits)]
    constructor
    · intro hcapture
      contradiction
    · rintro ⟨-, rfl⟩
      exact absurd hdata hfits

/-- A type whose values are written as extensions of one kind and read from these. `canonical` gives
the value that is read back. -/
structure Typed (α : Type) where
  type : ExtensionType
  source : α → Source
  ofExtension : Extension → Logged (Except Error α)
  canonical : α → α
  proper_type : type.Proper
  type_source : ∀ a, (source a).type = type
  data_canonical : ∀ a, (source (canonical a)).data = (source a).data
  canonical_canonical : ∀ a, canonical (canonical a) = canonical a
  value_eq_ok_iff : ∀ {x a}, (ofExtension x).value = .ok a
    ↔ x.type = type ∧ canonical a = a ∧ x.data = (source a).data

namespace Typed

variable (k : Typed α)

/-- **From the extension.** What was read of an extension is captured as that extension. -/
theorem capture_of_value (h : (k.ofExtension x).value = .ok a) : (k.source a).capture = .ok x := by
  obtain ⟨hkind, -, hdata⟩ := k.value_eq_ok_iff.mp h
  rw [Source.capture_eq_ok_iff, k.type_source]
  exact ⟨hkind, hdata⟩

/-- **To the extension.** What was captured of a value is read as its canonical form. -/
theorem value_of_capture (h : (k.source a).capture = .ok x) :
    (k.ofExtension x).value = .ok (k.canonical a) := by
  obtain ⟨hkind, hdata⟩ := Source.capture_eq_ok_iff.mp h
  rw [k.type_source] at hkind
  rw [k.value_eq_ok_iff, k.data_canonical]
  exact ⟨hkind, k.canonical_canonical a, hdata⟩

end Typed

end Extension

/-! ## Lists of tags

Both types hold a list of tags of bounded length, and the canonical form of such a list is taken tag
by tag. -/

namespace AtMost

variable {κ : Type} [Registry κ] {max : Nat}

/-- The list as it is read back: every tag by its name where it has one. -/
def canonical (xs : AtMost max (Tag κ)) : AtMost max (Tag κ) :=
  ⟨xs.items.map Tag.canonical, by simpa using xs.length_items⟩

/-- The canonical form of a list holds proper tags only. -/
theorem proper_of_mem_canonical {xs : AtMost max (Tag κ)} {t : Tag κ}
    (ht : t ∈ xs.canonical.items) : t.Proper := by
  obtain ⟨u, -, rfl⟩ := List.mem_map.mp ht
  exact u.proper_canonical

/-- The lists that are their own canonical form are those of proper tags. -/
theorem canonical_eq_iff {xs : AtMost max (Tag κ)} :
    xs.canonical = xs ↔ ∀ t ∈ xs.items, t.Proper := by
  constructor
  · intro hsame t ht
    rw [← hsame] at ht
    exact proper_of_mem_canonical ht
  · intro hproper
    obtain ⟨items, hmax⟩ := xs
    simp only [canonical, Tag.map_canonical_of_proper hproper]

/-- Making a list proper twice is making it proper once. -/
@[simp] theorem canonical_canonical (xs : AtMost max (Tag κ)) :
    xs.canonical.canonical = xs.canonical :=
  canonical_eq_iff.mpr fun _ => proper_of_mem_canonical

end AtMost

/-! ## Curves

Two octets for each curve, behind a length of two octets that counts octets. -/

namespace SupportedCurves

variable {c : SupportedCurves} {x : Extension}

/-- The reader of curves accepts exactly the octets of proper lists, whatever follows. -/
theorem accepts_read {input rest : Bytes} :
    read.Accepts input c rest
      ↔ (∀ t ∈ c.curves.items, t.Proper) ∧ input = c.encode ++ rest := by
  obtain ⟨curves⟩ := c
  simp only [read, Reader.accepts_bind, Reader.accepts_number, Reader.accepts_ite_else_fail,
    Reader.accepts_pure, mk.injEq, exists_eq_right_right, exists_eq_right]
  -- an even number of octets is a whole number of curves
  refine (Tag.accepts_counted (fun n => n % 2 = 0) (by decide) (by decide) ?_).trans ?_
  · intro n heven
    exact Nat.dvd_of_mod_eq_zero heven
  · exact and_iff_right (Nat.mul_mod_right 2 curves.items.length)

/-- The data of a list of curves, as an extension, are its octets. -/
theorem data_source (c : SupportedCurves) : c.source.data = c.encode :=
  Extension.Source.data_of_append fun _ => rfl

/-- An extension is read as some curves when it is of the kind of that name and its data are the
numbers of the curves, two octets each, behind the number of octets. -/
theorem value_ofExtension_eq_ok_iff :
    (ofExtension x).value = .ok c
      ↔ x.type = .registered .ellipticCurves
        ∧ ∃ ids : List UInt16, ids.length ≤ 16
          ∧ x.data = bigEndian 2 (2 * ids.length) ++ ids.flatMap (fun id => bigEndian 2 id.toNat)
          ∧ c.curves.items = ids.map fun id => .ofId id.toNat := by
  rw [ofExtension, Extension.interpret_eq_ok_iff, accepts_read, List.append_nil]
  exact and_congr_right' ((Tag.numbers_halfword rfl).exists_octets_iff
    fun count => bigEndian 2 (2 * count)).symm

/-- Curves as extensions. -/
def typed : Extension.Typed SupportedCurves where
  type := type
  source := source
  ofExtension := ofExtension
  canonical c := ⟨c.curves.canonical⟩
  proper_type := trivial
  type_source _ := rfl
  data_canonical c := by simp [data_source, encode, AtMost.canonical]
  canonical_canonical c := by simp
  value_eq_ok_iff {x c} := by
    rw [ofExtension, Extension.interpret_eq_ok_iff, accepts_read, List.append_nil, data_source,
      ← AtMost.canonical_eq_iff]
    obtain ⟨curves⟩ := c
    simp

end SupportedCurves

/-! ## Point formats

One octet for each format, behind a length of one octet. -/

namespace SupportedFormats

variable {f : SupportedFormats} {x : Extension}

/-- The reader of point formats accepts exactly the octets of proper lists, whatever follows. -/
theorem accepts_read {input rest : Bytes} :
    read.Accepts input f rest
      ↔ (∀ t ∈ f.formats.items, t.Proper) ∧ input = f.encode ++ rest := by
  obtain ⟨formats⟩ := f
  -- a format takes one octet, so every number of octets is a number of formats
  have hcounted : (∃ (octets : Fin (Bytes.span 1)) (mid : Bytes), input = bigEndian 1 octets ++ mid
      ∧ True ∧ (Tag.readList 4 .pointFormats octets).Accepts mid formats rest) ↔ _ :=
    Tag.accepts_counted (fun _ => True) (by decide) (by decide) fun n _ => Nat.one_dvd n
  have hone : Registry.width PointFormat.Name * formats.items.length = formats.items.length :=
    Nat.one_mul _
  rw [hone] at hcounted
  simp only [true_and] at hcounted
  simp only [read, Reader.accepts_bind, Reader.accepts_number, Reader.accepts_pure, mk.injEq,
    exists_eq_right_right, exists_eq_right]
  exact hcounted

/-- The data of a list of point formats, as an extension, are its octets. -/
theorem data_source (f : SupportedFormats) : f.source.data = f.encode :=
  Extension.Source.data_of_append fun _ => rfl

/-- An extension is read as some point formats when it is of the kind of that name and its data are
the numbers of the formats, one octet each, behind how many they are. -/
theorem value_ofExtension_eq_ok_iff :
    (ofExtension x).value = .ok f
      ↔ x.type = .registered .ecPointFormats
        ∧ ∃ ids : List UInt8, ids.length ≤ 4
          ∧ x.data = UInt8.ofNat ids.length :: ids
          ∧ f.formats.items = ids.map fun id => .ofId id.toNat := by
  have hoctets (ids : List UInt8) :
      bigEndian 1 ids.length
          ++ ids.flatMap (fun id => bigEndian (Registry.width PointFormat.Name) id.toNat)
        = UInt8.ofNat ids.length :: ids :=
    congrArg (bigEndian 1 ids.length ++ ·) (Bytes.flatMap_bigEndian_one ids)
  rw [ofExtension, Extension.interpret_eq_ok_iff, accepts_read, List.append_nil]
  refine and_congr_right' (((Tag.numbers_octet rfl).exists_octets_iff (bigEndian 1)).symm.trans ?_)
  simp only [hoctets]

/-- Point formats as extensions. -/
def typed : Extension.Typed SupportedFormats where
  type := type
  source := source
  ofExtension := ofExtension
  canonical f := ⟨f.formats.canonical⟩
  proper_type := trivial
  type_source _ := rfl
  data_canonical f := by simp [data_source, encode, AtMost.canonical]
  canonical_canonical f := by simp
  value_eq_ok_iff {x f} := by
    rw [ofExtension, Extension.interpret_eq_ok_iff, accepts_read, List.append_nil, data_source,
      ← AtMost.canonical_eq_iff]
    obtain ⟨formats⟩ := f
    simp

end SupportedFormats

end DatagramHello
