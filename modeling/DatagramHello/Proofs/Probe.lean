/-
What a probe can find out.

A probe decodes octets, writes what it got and compares. The two sides of the
comparison can differ only in what decoding forgets, and that is one thing: an
empty block at the end of a client hello. So a reading is always the same in
two of the four ways, and in the other two whether it is tells about the octets
alone, not about the value. Anything else that made a reading differ would be a defect of
the reader or of the writer, which is what a probe is run for.

The header that a probe puts in front of a body announces exactly that body, so
the message behind it is a frame as the writer makes it, and whether it ends in
an empty block is a question about the body.
-/
import DatagramHello.Probe
import DatagramHello.Proofs.Handshake.Spelling

set_option autoImplicit false

namespace DatagramHello.Probe

open Handshake (EndsInEmptyBlock frame)

variable {bytes : Bytes}

/-- A writer that appends its octets to every buffer is compared by these octets. -/
theorem writes_iff {w : Writer} {written : Bytes} (hw : w.Appends written) :
    writes w bytes = true ↔ written = bytes := by
  have hempty : (Buffer.empty.append written).toBytes = written := by
    rw [Buffer.toBytes_append, Buffer.toBytes_empty, List.nil_append]
  rw [writes, hw Buffer.empty]
  simp only [hempty, beq_iff_eq]

/-! ## The four ways to read

`block` and `handshake` are the two readers of a probe. The body of either hello
is read by the second one, behind a header. -/

/-- A block has one spelling, so one that decodes is written the same. -/
theorem same_of_block {r : Reading Extensions} (h : (block bytes).value = .ok r) :
    r.same = true := by
  obtain ⟨xs, hdecode, rfl⟩ := Logged.value_map_eq_ok_iff.mp h
  obtain ⟨-, hfits, hspelled⟩ :=
    Extensions.accepts_read.mp (Reader.whole_eq_ok_iff.mp hdecode)
  rw [List.append_nil] at hspelled
  exact (writes_iff (Extensions.appends_write hfits)).mpr hspelled.symm

/-- A message is written the same unless it ends in an empty block, which is never written. -/
theorem same_of_handshake {r : Reading Body} (h : (handshake bytes).value = .ok r) :
    r.same = true ↔ ¬ EndsInEmptyBlock bytes := by
  obtain ⟨m, hdecode, rfl⟩ := Logged.value_map_eq_ok_iff.mp h
  obtain ⟨-, hwritable, hspelled⟩ := Handshake.decode_eq_ok_iff.mp hdecode
  refine (writes_iff (Handshake.appends_write hwritable)).trans ?_
  constructor
  · rintro rfl
    exact Handshake.not_endsInEmptyBlock_encode m
  · intro hplain
    rcases hspelled with ⟨-, hshort⟩ | ⟨hbare, -, hlong⟩
    · exact hshort.symm
    · rw [hlong] at hplain
      exact absurd (Handshake.endsInEmptyBlock_encodeWithBlock hbare) hplain

/-- The header that a probe puts in front of a body is the one that a writer would, so two of the
four results are those of frames. -/
theorem value_run (bytes : Bytes) :
    (run bytes).value = {
      extensions := (block bytes).value
      raw := (handshake bytes).value
      asClientHello := (handshake (frame (.registered .clientHello) 0 bytes)).value
      asHelloVerify := (handshake (frame (.registered .helloVerifyRequest) 0 bytes)).value } :=
  rfl

/-- A framed body ends in an empty block as a message exactly if the frame is that of a client hello
and the body goes on with 00 00 after the fields of some hello. -/
theorem endsInEmptyBlock_frame_iff {type : MessageType} {seq : UInt16} {body : Bytes}
    (htype : type.Proper) :
    EndsInEmptyBlock (frame type seq body)
      ↔ type = .registered .clientHello ∧ ∃ c : ClientHello, body = c.encodeFields ++ [0, 0] := by
  constructor
  · rintro ⟨hd, c, hclient, heq⟩
    obtain ⟨hheader, hbody⟩ := List.append_inj heq (by simp)
    -- both headers begin with the octet of their kind
    have hkind : type.encode = hd.type.encode := by
      simp only [Header.encode, List.append_assoc] at hheader
      exact (List.append_inj hheader (by simp)).1
    have hsame : type.canonical = hd.type.canonical := Tag.canonical_eq_of_encode_eq hkind
    rw [htype.canonical_eq, hclient] at hsame
    exact ⟨hsame, c, hbody⟩
  · rintro ⟨rfl, c, rfl⟩
    exact ⟨_, c, rfl, rfl⟩

/-- **What a probe finds out.** Octets that decode as a block are written the same, and so are those
that decode as the body of an answer. Octets that decode as a message are unless they end in an
empty block, and octets that decode as the body of a client hello unless they are the fields of one
with 00 00 behind. -/
theorem run_same (bytes : Bytes) :
    (∀ r, (run bytes).value.extensions = .ok r → r.same = true)
      ∧ (∀ r, (run bytes).value.raw = .ok r → (r.same = true ↔ ¬ EndsInEmptyBlock bytes))
      ∧ (∀ r, (run bytes).value.asClientHello = .ok r →
          (r.same = true ↔ ¬ ∃ c : ClientHello, bytes = c.encodeFields ++ [0, 0]))
      ∧ ∀ r, (run bytes).value.asHelloVerify = .ok r → r.same = true := by
  have hclient : (Tag.registered .clientHello : MessageType).Proper := trivial
  have hverify : (Tag.registered .helloVerifyRequest : MessageType).Proper := trivial
  simp only [value_run]
  refine ⟨fun r hr => same_of_block hr, fun r hr => same_of_handshake hr, ?_, ?_⟩
  · intro r hr
    rw [same_of_handshake hr, endsInEmptyBlock_frame_iff hclient]
    simp only [true_and]
  · intro r hr
    rw [same_of_handshake hr, endsInEmptyBlock_frame_iff hverify]
    rintro ⟨hother, -⟩
    exact absurd hother (by decide)

end DatagramHello.Probe
