/-
A source written at once, and written after it was captured.

There are two ways to the octets of a source. One puts kind and announced length
down and lets the source write behind them, into a buffer that holds other
things already. The other lets it write into an empty buffer, keeps what came
out as an extension, and writes that. Each way has its own check and asks it of
its own number: the first of the announced length, before anything is written,
the second of the data, when they are there.

A source whose data are as many octets as it announces makes the two numbers
one, so the two ways have the same verdict, and a failure of either leaves the
buffer alone. They write the same octets if the data are the same in both
places. This is so for data that do not depend on the buffer, and those of an
extension, of a list of curves and of a list of point formats do not. A source
that looks into the buffer it is given can tell the places apart, and for such a
one the data are all that can differ.
-/
import DatagramHello.Proofs.Extension.Supported

set_option autoImplicit false

namespace DatagramHello

open Bytes (bigEndian)

namespace Extension

namespace Source

variable {s : Source} {data : Bytes}

/-- Whatever is in the buffer, the source adds as many octets as it announces. -/
def Counts (s : Source) : Prop :=
  ∀ out, ∃ data, s.writeData out = out.append data ∧ data.length = s.announced

/-- The data of the source are `data` in every buffer, and their length is announced. -/
structure Describes (s : Source) (data : Bytes) : Prop where
  announced_eq : s.announced = data.length
  writeData_eq : ∀ out, s.writeData out = out.append data

/-- Captures the source and writes the extension; what is not captured is not written. -/
def writeCaptured (s : Source) : Writer := fun out =>
  match s.capture with
  | .ok x => x.write out
  | .error e => Writer.fail e out

/-- What stands in front of the data. -/
def head (s : Source) : Bytes := s.type.encode ++ bigEndian 2 s.announced

/-- A source with fixed data that announces their length keeps its promise. -/
theorem Describes.counts (h : s.Describes data) : s.Counts := by
  intro out
  exact ⟨data, h.writeData_eq out, h.announced_eq.symm⟩

/-- What a source writes into an empty buffer is what it writes anywhere. -/
theorem Describes.data_eq (h : s.Describes data) : s.data = data :=
  data_of_append h.writeData_eq

/-- The check on the announced length and the check on the data ask the same. -/
theorem Counts.length_data (h : s.Counts) : s.data.length = s.announced := by
  obtain ⟨data, hdata, hlength⟩ := h Buffer.empty
  rw [Source.data, hdata, Buffer.toBytes_append, Buffer.toBytes_empty, List.nil_append, hlength]

/-! ## The two ways

Each way is followed to its end, where it is refused and where it succeeds. The cases are told apart
by a number of the source's own, so that putting the two ways side by side is a matter of comparing
numbers. -/

/-- Writing a source that announces too much is refused before anything is put down. -/
theorem write_of_lt (h : 65535 < s.announced) (out : Buffer) :
    s.write out = ⟨out, .error (.doesNotFit .extensionData s.announced 65535)⟩ := by
  rw [write, if_pos h]
  rfl

/-- Writing any other source succeeds, with the data it puts behind the head. It is not looked at
whether they are as many as were announced. -/
theorem write_of_le (h : s.announced ≤ 65535) (out : Buffer) :
    s.write out = ⟨s.writeData (out.append s.head), .ok ()⟩ := by
  rw [write, if_neg (Nat.not_lt.mpr h)]
  rfl

/-- Data that fit are captured as they are. -/
theorem capture_of_le (h : s.data.length ≤ 65535) : s.capture = .ok ⟨s.type, s.data, h⟩ :=
  ofData_of_le h

/-- What was captured is written as an extension. -/
theorem writeCaptured_of_capture {x : Extension} (h : s.capture = .ok x) (out : Buffer) :
    s.writeCaptured out = ⟨out.append x.encode, .ok ()⟩ := by
  rw [writeCaptured, h]
  exact x.appends_write out

/-- Capturing a source that announces too much, and keeps its promise, is refused with the same
numbers as writing it is. -/
theorem Counts.writeCaptured_of_lt (hs : s.Counts) (h : 65535 < s.announced) (out : Buffer) :
    s.writeCaptured out = ⟨out, .error (.doesNotFit .extensionData s.announced 65535)⟩ := by
  rw [← hs.length_data] at h ⊢
  rw [writeCaptured, capture, ofData_of_lt h]
  rfl

/-- The captured extension announces the length that the source announces. -/
theorem Counts.writeCaptured_of_le (hs : s.Counts) (h : s.announced ≤ 65535) (out : Buffer) :
    s.writeCaptured out = ⟨(out.append s.head).append s.data, .ok ()⟩ := by
  have hfits : s.data.length ≤ 65535 := by
    rw [hs.length_data]
    exact h
  rw [writeCaptured_of_capture (capture_of_le hfits), Buffer.append_append]
  simp only [encode, head, hs.length_data]

/-- **One verdict.** The two ways agree on whether they succeed, and on the error if they do not. -/
theorem Counts.result_write (hs : s.Counts) (out : Buffer) :
    (s.write out).result = (s.writeCaptured out).result := by
  by_cases h : s.announced ≤ 65535
  · rw [write_of_le h, hs.writeCaptured_of_le h]
  · have hlong : 65535 < s.announced := Nat.not_le.mp h
    rw [write_of_lt hlong, hs.writeCaptured_of_lt hlong]

/-- The ways part only where data are written, and only by the data. -/
theorem Counts.write_eq_iff (hs : s.Counts) (out : Buffer) :
    s.write out = s.writeCaptured out
      ↔ 65535 < s.announced
        ∨ s.writeData (out.append s.head) = (out.append s.head).append s.data := by
  by_cases h : s.announced ≤ 65535
  · rw [write_of_le h, hs.writeCaptured_of_le h, Written.mk.injEq]
    simp [Nat.not_lt.mpr h]
  · have hlong : 65535 < s.announced := Nat.not_le.mp h
    rw [write_of_lt hlong, hs.writeCaptured_of_lt hlong]
    simp [hlong]

/-- **One outcome.** With fixed data the two ways also leave the same buffer. -/
theorem Describes.write_eq (h : s.Describes data) (out : Buffer) :
    s.write out = s.writeCaptured out := by
  rw [h.counts.write_eq_iff, h.data_eq]
  exact .inr (h.writeData_eq _)

/-- What is written of a source is read as the extension that was captured of it. -/
theorem Describes.exists_written (h : s.Describes data) (hfits : data.length ≤ 65535)
    (out : Buffer) :
    ∃ bytes x, s.write out = ⟨out.append bytes, .ok ()⟩ ∧ s.capture = .ok x
      ∧ ∀ rest, read.Accepts (bytes ++ rest) x.canonical rest := by
  have hdata : s.data.length ≤ 65535 := by
    rw [h.data_eq]
    exact hfits
  let x : Extension := ⟨s.type, s.data, hdata⟩
  have hcapture : s.capture = .ok x := capture_of_le hdata
  refine ⟨x.encode, x, ?_, hcapture, ?_⟩
  · rw [h.write_eq]
    exact writeCaptured_of_capture hcapture out
  · intro rest
    refine accepts_read.mpr ⟨s.type.proper_canonical, ?_⟩
    rw [encode_canonical]

/-- Octets that a caller has at hand are fixed data. -/
theorem describes_ofBytes (type : ExtensionType) (data : Bytes) :
    (ofBytes type data).Describes data :=
  ⟨rfl, fun _ => rfl⟩

end Source

/-- An extension is written back from the data it holds. -/
theorem describes_source (x : Extension) : x.source.Describes x.data :=
  Source.describes_ofBytes x.type x.data

end Extension

/-! ## The lists

The sources that the library itself has. All of them write octets that they know before they are
given a buffer. -/

/-- A list of curves announces the octets it is encoded as, and writes them. -/
theorem SupportedCurves.describes_source (c : SupportedCurves) : c.source.Describes c.encode := by
  refine ⟨?_, fun _ => rfl⟩
  rw [encode, List.length_append, Bytes.length_bigEndian, Tag.length_encodeList]
  rfl

/-- A list of point formats announces the octets it is encoded as, and writes them. -/
theorem SupportedFormats.describes_source (f : SupportedFormats) :
    f.source.Describes f.encode := by
  refine ⟨?_, fun _ => rfl⟩
  rw [encode, List.length_append, Bytes.length_bigEndian, Tag.length_encodeList]
  show 1 + f.formats.items.length = 1 + 1 * f.formats.items.length
  rw [Nat.one_mul]

namespace Extension

/-- **One way or the other.** A source that adds as many octets as it announces is written or
refused alike, at once and after it was captured, and where the two ways differ it is by data that
were not the same in both places. So for a source with data of its own, whatever is in the buffer,
they are one: data over 65535 octets are refused by their number and the buffer is left as it was,
and else the octets that are added are read, whatever follows them, as the captured extension, of
the kind that its number names. An extension is such a source, and so are lists of curves and of
point formats. -/
theorem written_as_captured :
    (∀ s : Source, s.Counts → ∀ out : Buffer,
      (s.write out).result = (s.writeCaptured out).result
        ∧ (s.write out = s.writeCaptured out
          ↔ 65535 < s.announced
            ∨ s.writeData (out.append s.head) = (out.append s.head).append s.data))
    ∧ (∀ (s : Source) (data : Bytes), s.Describes data → ∀ out : Buffer,
      s.write out = s.writeCaptured out
        ∧ (65535 < data.length →
          s.write out = ⟨out, .error (.doesNotFit .extensionData data.length 65535)⟩)
        ∧ (data.length ≤ 65535 → ∃ (bytes : Bytes) (x : Extension),
          s.write out = ⟨out.append bytes, .ok ()⟩
            ∧ s.capture = .ok x
            ∧ ∀ rest, read.Accepts (bytes ++ rest) { x with type := .ofId x.type.id } rest))
    ∧ (∀ x : Extension, x.source.Describes x.data)
    ∧ (∀ c : SupportedCurves, c.source.Describes c.encode)
    ∧ ∀ f : SupportedFormats, f.source.Describes f.encode := by
  refine ⟨?_, ?_, describes_source, SupportedCurves.describes_source,
    SupportedFormats.describes_source⟩
  · intro s hs out
    exact ⟨hs.result_write out, hs.write_eq_iff out⟩
  · intro s data hs out
    refine ⟨hs.write_eq out, ?_, ?_⟩
    · intro hlong
      rw [← hs.announced_eq] at hlong ⊢
      exact Source.write_of_lt hlong out
    · intro hfits
      exact hs.exists_written hfits out

/-- A source with the given data, for a kind that goes by its number though it has a name. -/
def numbered (data : Bytes) : Source := Source.ofBytes (.keep 10) data

/-- Behind an octet that was there, one octet of data is written and comes back with the name of its
kind, 65536 octets are refused and leave the buffer alone, and the curves that are supported if
nothing else is said are written the same in both ways. -/
theorem written_as_captured_numbered :
    (∃ (bytes : Bytes) (x : Extension),
        (numbered [7]).write (.ofBytes [1]) = ⟨(Buffer.ofBytes [1]).append bytes, .ok ()⟩
          ∧ (numbered [7]).capture = .ok x
          ∧ read.Accepts (bytes ++ [9]) { x with type := .registered .ellipticCurves } [9])
      ∧ (numbered (List.replicate 65536 0)).write (.ofBytes [1])
          = ⟨.ofBytes [1], .error (.doesNotFit .extensionData 65536 65535)⟩
      ∧ (default : SupportedCurves).source.write (.ofBytes [1])
          = (default : SupportedCurves).source.writeCaptured (.ofBytes [1])
      ∧ ((numbered [7]).write Buffer.empty).result
          = ((numbered [7]).writeCaptured Buffer.empty).result := by
  obtain ⟨hcounts, hdescribes, -, hcurves, -⟩ := written_as_captured
  have hone : (numbered [7]).Describes [7] := Source.describes_ofBytes _ _
  obtain ⟨-, -, hwritten⟩ := hdescribes _ _ hone (.ofBytes [1])
  obtain ⟨bytes, x, hwrite, hcapture, hread⟩ := hwritten (by decide)
  obtain ⟨-, hrefused, -⟩ :=
    hdescribes _ _ (Source.describes_ofBytes (.keep 10) (List.replicate 65536 0)) (.ofBytes [1])
  rw [List.length_replicate] at hrefused
  obtain ⟨hkind, -⟩ := Source.capture_eq_ok_iff.mp hcapture
  have hnamed : (Tag.ofId x.type.id : ExtensionType) = .registered .ellipticCurves := by
    rw [hkind]
    decide
  refine ⟨⟨bytes, x, hwrite, hcapture, ?_⟩, hrefused (by decide), ?_, ?_⟩
  · rw [← hnamed]
    exact hread [9]
  · exact (hdescribes _ _ (hcurves default) (.ofBytes [1])).1
  · exact (hcounts _ hone.counts Buffer.empty).1

/-- A source whose one octet of data is the number of octets in the buffer that it is given. -/
def positional : Source where
  type := .keep 0xff01
  announced := 1
  writeData out := out.append [UInt8.ofNat out.length]

/-- **Counting is not enough.** The source `positional` writes as many octets as it announces into
every buffer, and the two ways part on the empty one: written at once its octet stands behind the
four of kind and length, captured it stands in front of everything. Nor is what is written read as
the extension that was captured. So `Describes` cannot be replaced by `Counts` in either half. -/
theorem counts_not_enough :
    positional.Counts
      ∧ (positional.write .empty).buffer.toBytes = [0xff, 0x01, 0x00, 0x01, 0x04]
      ∧ (positional.writeCaptured .empty).buffer.toBytes = [0xff, 0x01, 0x00, 0x01, 0x00]
      ∧ (¬ ∀ s : Source, s.Counts → ∀ out : Buffer, s.write out = s.writeCaptured out)
      ∧ ¬ ∀ s : Source, s.Counts → ∀ (out : Buffer) (bytes : Bytes) (x : Extension),
          s.write out = ⟨out.append bytes, .ok ()⟩ → s.capture = .ok x →
            ∀ rest, read.Accepts (bytes ++ rest) { x with type := .ofId x.type.id } rest := by
  have hcounts : positional.Counts := fun out => ⟨[UInt8.ofNat out.length], rfl, rfl⟩
  have hwritten : (positional.write .empty).buffer.toBytes = [0xff, 0x01, 0x00, 0x01, 0x04] := by
    decide
  have hcaptured : (positional.writeCaptured .empty).buffer.toBytes
      = [0xff, 0x01, 0x00, 0x01, 0x00] := by
    decide
  refine ⟨hcounts, hwritten, hcaptured, ?_, ?_⟩
  · intro hsame
    rw [hsame positional hcounts .empty, hcaptured] at hwritten
    exact absurd hwritten (by decide)
  · intro hread
    have hback := hread positional hcounts .empty [0xff, 0x01, 0x00, 0x01, 0x04]
      ⟨.keep 0xff01, [0], by decide⟩ rfl rfl []
    -- the octet that is read back is 4, the one that was captured 0
    obtain ⟨-, hoctets⟩ := accepts_read.mp hback
    exact absurd hoctets (by decide)

end Extension

end DatagramHello
