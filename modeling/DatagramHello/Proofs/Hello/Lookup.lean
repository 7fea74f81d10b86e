/-
What a hello says of curves and point formats.

A hello does not know of the two lists; they travel in extensions like any
other, and whoever wants one looks for the first extension of its kind. The
hello that arrives is the one that was sent, except that kinds and tags go by
their names where they have one. So an extension that had the number of a kind
without its name is found there under that name, and if it stood in front it
would be found first. Nothing else stands in the way: an extension of a kind by
name is not changed at all, and the first of its number is what the lookup
finds.
-/
import DatagramHello.Proofs.Extension.Supported
import DatagramHello.Proofs.Hello.Codec

set_option autoImplicit false

namespace DatagramHello

open Bytes (bigEndian)

/-- The extension stands in the block, and none in front of it has the number of its kind. -/
def Extensions.First (xs : Extensions) (x : Extension) : Prop :=
  ∃ front back, xs.entries = front ++ x :: back ∧ ∀ y ∈ front, y.type.id ≠ x.type.id

/-- After all kinds went over to their names, the first extension of a number is the first of its
kind. -/
theorem Extensions.First.find?_canonical {xs : Extensions} {x : Extension}
    (hfirst : xs.First x) (hproper : x.type.Proper) :
    xs.canonical.find? x.type = some x := by
  obtain ⟨front, back, hentries, hother⟩ := hfirst
  have hsame : x.canonical = x := by rw [Extension.canonical, hproper.canonical_eq]
  refine List.find?_eq_some_iff_append.mpr ⟨decide_eq_true rfl, front.map Extension.canonical,
    back.map Extension.canonical, ?_, ?_⟩
  · rw [canonical, hentries, List.map_append, List.map_cons, hsame]
  · intro z hz
    obtain ⟨y, hy, rfl⟩ := List.mem_map.mp hz
    -- an extension in front that is of this kind now had its number before
    have hkind : y.canonical.type ≠ x.type := by
      intro hkind
      apply hother y hy
      rw [← hkind, Extension.canonical, Tag.id_canonical]
    simp [hkind]

/-- What is looked up in the hello that arrives is the extension that was put in, and it is read as
the canonical value. -/
theorem Extension.Typed.found_canonical {α : Type} (k : Extension.Typed α) {h : ClientHello}
    {x : Extension} {a : α} (hfirst : h.extensions.First x)
    (hcapture : (k.source a).capture = .ok x) :
    h.canonical.extensions.find? k.type = some x
      ∧ (k.ofExtension x).value = .ok (k.canonical a) := by
  have hkind : x.type = k.type := by
    rw [(Source.capture_eq_ok_iff.mp hcapture).1, k.type_source]
  refine ⟨?_, k.value_of_capture hcapture⟩
  rw [← hkind]
  exact hfirst.find?_canonical (by rw [hkind]; exact k.proper_type)

namespace ClientHello

/-- A hello that can be written is read back, every tag by its name where it has one. -/
theorem Writable.accepts_encode {h : ClientHello} (hw : h.Writable) :
    read.Accepts h.encode h.canonical [] :=
  accepts_body_iff.mpr
    ⟨h.proper_canonical, writable_canonical.mpr hw, .inl h.encode_canonical.symm⟩

/-- **Nothing is lost in an extension.** An extension is read as a list of curves exactly if it is
of their kind, by name, and its data are the numbers of at most 16 curves behind the octets that
they take; and then it is the extension that these curves are written as. So it is with at most 4
point formats, behind their count. If a hello can be written and an extension in it is the first of
its number, then in the hello that is read back the extension is looked up under its kind and gives
the list that was put in, every tag by its name where it has one. So it gives the same list, unless
that had a number in it in place of a name. -/
theorem typed_extensions_kept :
    (∀ (x : Extension) (c : SupportedCurves),
      ((SupportedCurves.ofExtension x).value = .ok c
        ↔ x.type = .registered .ellipticCurves
          ∧ ∃ ids : List UInt16, ids.length ≤ 16
            ∧ x.data = bigEndian 2 (2 * ids.length)
                ++ ids.flatMap (fun id => bigEndian 2 id.toNat)
            ∧ c.curves.items = ids.map fun id => .ofId id.toNat)
      ∧ ((SupportedCurves.ofExtension x).value = .ok c → c.source.capture = .ok x))
    ∧ (∀ (x : Extension) (f : SupportedFormats),
      ((SupportedFormats.ofExtension x).value = .ok f
        ↔ x.type = .registered .ecPointFormats
          ∧ ∃ ids : List UInt8, ids.length ≤ 4
            ∧ x.data = UInt8.ofNat ids.length :: ids
            ∧ f.formats.items = ids.map fun id => .ofId id.toNat)
      ∧ ((SupportedFormats.ofExtension x).value = .ok f → f.source.capture = .ok x))
    ∧ ∀ (h : ClientHello) (before : Buffer), (h.write before).result = .ok () →
        ∃ (w : Bytes) (k : ClientHello), (∀ out, h.write out = ⟨out.append w, .ok ()⟩)
          ∧ read.Accepts w k []
          ∧ (∀ (x : Extension) (c : SupportedCurves), c.source.capture = .ok x →
              h.extensions.First x →
              ∃ y c', k.extensions.find? (.registered .ellipticCurves) = some y
                ∧ (SupportedCurves.ofExtension y).value = .ok c'
                ∧ c'.curves.items = c.curves.items.map (fun t => .ofId t.id)
                ∧ ((∀ t ∈ c.curves.items, t.Proper) → c' = c))
          ∧ (∀ (x : Extension) (f : SupportedFormats), f.source.capture = .ok x →
              h.extensions.First x →
              ∃ y f', k.extensions.find? (.registered .ecPointFormats) = some y
                ∧ (SupportedFormats.ofExtension y).value = .ok f'
                ∧ f'.formats.items = f.formats.items.map (fun t => .ofId t.id)
                ∧ ((∀ t ∈ f.formats.items, t.Proper) → f' = f)) := by
  refine ⟨?_, ?_, ?_⟩
  · intro x c
    exact ⟨SupportedCurves.value_ofExtension_eq_ok_iff, SupportedCurves.typed.capture_of_value⟩
  · intro x f
    exact ⟨SupportedFormats.value_ofExtension_eq_ok_iff, SupportedFormats.typed.capture_of_value⟩
  · intro h before hok
    have hw := writable_of_result hok
    refine ⟨h.encode, h.canonical, hw.appends, hw.accepts_encode, ?_, ?_⟩
    · intro x c hcapture hfirst
      obtain ⟨hfound, hvalue⟩ := SupportedCurves.typed.found_canonical hfirst hcapture
      refine ⟨x, ⟨c.curves.canonical⟩, hfound, hvalue, rfl, ?_⟩
      intro hproper
      rw [AtMost.canonical_eq_iff.mpr hproper]
    · intro x f hcapture hfirst
      obtain ⟨hfound, hvalue⟩ := SupportedFormats.typed.found_canonical hfirst hcapture
      refine ⟨x, ⟨f.formats.canonical⟩, hfound, hvalue, rfl, ?_⟩
      intro hproper
      rw [AtMost.canonical_eq_iff.mpr hproper]

/-- Two curves, one of them by a number that has a name. -/
def someCurves : SupportedCurves where
  curves := { items := [.keep 23, .keep 4660] }

/-- Two point formats, the second without a name. -/
def someFormats : SupportedFormats where
  formats := { items := [.registered .uncompressed, .keep 77] }

/-- The two curves as an extension. -/
def someCurvesExtension : Extension := ⟨SupportedCurves.type, [0, 4, 0, 23, 18, 52], by decide⟩

/-- The two point formats as an extension. -/
def someFormatsExtension : Extension := ⟨SupportedFormats.type, [2, 0, 77], by decide⟩

/-- A hello with curves and point formats, and between them an extension with the number of the
curves that is not of their kind. -/
def withLists : ClientHello :=
  { plain with
    extensions := ⟨[someCurvesExtension, ⟨.keep 10, [], by decide⟩, someFormatsExtension]⟩ }

/-- The first curve comes back by its name, the second as it was, and the point formats as they
were. -/
theorem typed_extensions_kept_withLists :
    ∃ (w : Bytes) (k : ClientHello) (y z : Extension) (c : SupportedCurves),
      withLists.write Buffer.empty = ⟨Buffer.empty.append w, .ok ()⟩
        ∧ read.Accepts w k []
        ∧ k.extensions.find? (.registered .ellipticCurves) = some y
        ∧ (SupportedCurves.ofExtension y).value = .ok c
        ∧ c.curves.items = [.registered .secp256r1, .keep 4660]
        ∧ k.extensions.find? (.registered .ecPointFormats) = some z
        ∧ (SupportedFormats.ofExtension z).value = .ok someFormats
        ∧ someFormats.source.capture = .ok z := by
  obtain ⟨-, hformats, hhello⟩ := typed_extensions_kept
  obtain ⟨w, k, hwrite, hread, hcurves, hpoints⟩ :=
    hhello withLists (Buffer.ofBytes [9]) rfl
  obtain ⟨y, c, hy, hc, hitems, -⟩ :=
    hcurves someCurvesExtension someCurves rfl ⟨[], _, rfl, by simp⟩
  obtain ⟨z, f, hz, hf, -, hsame⟩ :=
    hpoints someFormatsExtension someFormats rfl ⟨[someCurvesExtension, _], [], rfl, by decide⟩
  have hproper : ∀ t ∈ someFormats.formats.items, t.Proper :=
    AtMost.canonical_eq_iff.mp (by decide)
  have hf' : (SupportedFormats.ofExtension z).value = .ok someFormats := by
    rw [hf, hsame hproper]
  exact ⟨w, k, y, z, c, hwrite _, hread, hy, hc, hitems, hz, hf', (hformats z someFormats).2 hf'⟩

end ClientHello

end DatagramHello
