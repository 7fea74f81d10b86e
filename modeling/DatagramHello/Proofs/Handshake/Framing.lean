/-
What is decided on the header of a message, and what on its body.

A message reader makes five tests, each on what the ones before it left open.
On the header alone it refuses a fragment and a body over its limit; then the
body has to be there, has to be read by the reader of its kind, and has to be
used up by it. Whatever follows the header takes no part in the first two, and
whatever follows the body takes no part in any.

The limit is used in one place, so two readers with different limits do the
same behind that place (`readBody` knows no limit), and the larger one differs
from the smaller only where the smaller one says that the body is too big.

The kind of a message counts as its number: a header with an unassigned kind
that has a name is read with the name, and the body by the reader for that.
-/
import DatagramHello.Proofs.Handshake.Codec
import DatagramHello.Proofs.Wire.Places

set_option autoImplicit false

namespace DatagramHello

open Bytes (numberAt)

variable {input rest : Bytes} {e : Error}

/-! ## The header by its places

The twelve octets as numbers: the kind at 0, the length at 1, the sequence number at 4, offset and
length of the fragment at 6 and 9. The verdicts below are stated by these, so they can be checked on
the octets of a message. -/

namespace Header

variable {hd : Header}

/-- Twelve octets are a header, and fewer are not. -/
theorem takes_read : read.Takes 12 :=
  Tag.takes_read.bind fun _ => (Reader.takes_number 3).bind fun _ =>
    (Reader.takes_number 2).bind fun _ => (Reader.takes_number 3).bind fun _ =>
      (Reader.takes_number 3).bind fun _ => Reader.takes_pure _

/-- The length lies behind the kind, the offset behind kind, length and sequence number, and the
fragment length behind all these. -/
theorem numberAt_of_accepts_read (h : read.Accepts input hd rest) :
    numberAt 3 1 input = hd.length.toNat ∧ numberAt 3 6 input = hd.offset.toNat
      ∧ numberAt 3 9 input = hd.fragmentLength.toNat := by
  obtain ⟨-, hlength, hoffset, hfragment, rfl⟩ := accepts_read.mp h
  have hkind : hd.type.encode.length = 1 := hd.type.length_encode
  refine ⟨?_, ?_, ?_⟩
  · rw [encode, List.append_assoc, List.append_assoc, List.append_assoc, List.append_assoc]
    exact Bytes.numberAt_append hkind hlength
  · rw [encode, List.append_assoc, List.append_assoc]
    refine Bytes.numberAt_append ?_ hoffset
    simp [hkind]
  · rw [encode, List.append_assoc]
    refine Bytes.numberAt_append ?_ hfragment
    simp [hkind]

/-- A fragment starts inside the body or is not as long as the body. -/
theorem isFragment_iff :
    hd.isFragment = true ↔ hd.offset.toNat ≠ 0 ∨ hd.fragmentLength.toNat ≠ hd.length.toNat := by
  have hpos : 0 < hd.offset ↔ hd.offset.toNat ≠ 0 := by
    rw [UInt32.lt_iff_toNat_lt]
    exact Nat.pos_iff_ne_zero
  have hlength : hd.fragmentLength ≠ hd.length
      ↔ hd.fragmentLength.toNat ≠ hd.length.toNat := not_congr UInt32.toNat_inj.symm
  rw [isFragment, Bool.or_eq_true, decide_eq_true_iff, bne_iff_ne, hpos, hlength]

end Header

namespace Handshake

variable {limit : Nat} {hd : Header} {d s : Bytes}

/-! ## Behind the header

The five tests, one by one and in their order, each with what decides it. -/

/-- A fragment is refused whatever its length and whatever follows. -/
theorem fails_readBehind_of_fragment (hfragment : hd.isFragment = true) :
    (readBehind limit hd).Fails rest (.framing .fragmented) := by
  rw [readBehind, if_pos hfragment, Reader.fails_refuse]

/-- A body over the limit is refused before any of it is looked for. -/
theorem fails_readBehind_of_lt (hwhole : hd.isFragment = false)
    (hlong : limit < hd.length.toNat) :
    (readBehind limit hd).Fails rest (.tooBig hd.length.toNat limit) := by
  rw [readBehind, if_neg (by simp [hwhole]), if_pos hlong, Reader.fails_fail]

/-- Within the limit it is the body that decides. -/
theorem readBehind_of_le (hwhole : hd.isFragment = false) (hle : hd.length.toNat ≤ limit) :
    readBehind limit hd = readBody hd := by
  rw [readBehind, if_neg (by simp [hwhole]), if_neg (Nat.not_lt.mpr hle)]

/-- A body that is not all there is waited for. -/
theorem fails_readBody_of_length_lt (hshort : rest.length < hd.length.toNat) :
    (readBody hd).Fails rest .truncated :=
  Reader.fails_bind.mpr (.inl (Reader.fails_take.mpr ⟨hshort, rfl⟩))

section Body

variable (hlength : d.length = hd.length.toNat)

include hlength

/-- The announced number of octets is cut off, and the rest is out of sight. -/
theorem accepts_take_body (s : Bytes) :
    (Reader.take hd.length.toNat).Accepts (d ++ s) ⟨d, hlength⟩ s :=
  Reader.accepts_take.mpr rfl

/-- A body that is there is blamed for what its own reader blames it for, or for what that reader
leaves. -/
theorem fails_readBody :
    (readBody hd).Fails (d ++ s) e
      ↔ (Body.read hd.type).Fails d e
        ∨ ∃ b excess, (Body.read hd.type).Accepts d b excess ∧ excess ≠ []
          ∧ e = .framing .bytesAfterBody := by
  rw [readBody, Reader.fails_bind_of_accepts (accepts_take_body hlength s), Reader.fails_bind,
    Reader.fails_inside]
  refine or_congr_right ?_
  constructor
  · rintro ⟨⟨b, excess⟩, mid, hinside, hread⟩
    obtain ⟨hbody, rfl⟩ := Reader.accepts_inside.mp hinside
    by_cases hexcess : excess.isEmpty
    · simp only [if_pos hexcess] at hread
      exact absurd hread Reader.not_fails_pure
    · simp only [if_neg hexcess, Reader.fails_refuse] at hread
      refine ⟨b, excess, hbody, ?_, hread.symm⟩
      simpa using hexcess
  · rintro ⟨b, excess, hbody, hexcess, rfl⟩
    refine ⟨(b, excess), s, Reader.accepts_inside.mpr ⟨hbody, rfl⟩, ?_⟩
    simp [hexcess]

end Body

/-! ## Two limits

A reader with a larger limit can only see more. Where the smaller limit lets a body through, both
readers are the same from there on, in their verdict and in what they log. -/

/-- With a larger limit the same is said, unless the body was too big. -/
theorem read_eq_of_le {limit' : Nat} (hle : limit ≤ limit') :
    read limit input = read limit' input
      ∨ ∃ length, (read limit).Fails input (.tooBig length limit) := by
  by_cases hbig : ∃ length, (read limit).Fails input (.tooBig length limit)
  · exact .inr hbig
  left
  rw [read_eq_bind, read_eq_bind]
  refine Reader.bind_apply_congr fun hd mid hhead => ?_
  by_cases hfragment : hd.isFragment = true
  · rw [readBehind, readBehind, if_pos hfragment, if_pos hfragment]
  have hwhole : hd.isFragment = false := by simpa using hfragment
  -- behind a header within the smaller limit neither limit is looked at again
  have hfits : hd.length.toNat ≤ limit := by
    refine Nat.not_lt.mp fun hlong => hbig ⟨hd.length.toNat, ?_⟩
    rw [read_eq_bind, Reader.fails_bind_of_accepts hhead]
    exact fails_readBehind_of_lt hwhole hlong
  rw [readBehind_of_le hwhole hfits, readBehind_of_le hwhole (Nat.le_trans hfits hle)]

/-! ## The verdicts

Back to the octets: with twelve of them there is a header, and its numbers decide. -/

/-- Behind a header that was read, what is behind it decides. -/
theorem fails_read_of_header (hhead : Header.read.Accepts input hd rest) :
    (read limit).Fails input e ↔ (readBehind limit hd).Fails rest e := by
  rw [read_eq_bind, Reader.fails_bind_of_accepts hhead]

/-- The header of a frame is read as that of a message in one piece, with the body's length and the
kind by name, and the body is left with whatever follows it. -/
theorem exists_accepts_header_frame (type : MessageType) (seq : UInt16)
    (hspan : d.length < Bytes.span 3) (s : Bytes) :
    ∃ hd, Header.read.Accepts (frame type seq d ++ s) hd (d ++ s) ∧ hd.isFragment = false
      ∧ d.length = hd.length.toNat ∧ hd.type = type.canonical ∧ hd.seq = seq := by
  refine ⟨Header.unfragmented type.canonical (UInt32.ofNat d.length) seq, ?_, ?_, ?_, rfl, rfl⟩
  · rw [frame, List.append_assoc]
    exact Header.accepts_unfragmented type seq hspan (d ++ s)
  · exact Header.isFragment_eq_false_iff.mpr rfl
  · exact (Bytes.toNat_word (by decide) hspan).symm

/-- **The verdicts on a frame.** A body of any octets behind the header of a message in one piece is
too big if it is over the limit. Otherwise its own reader decides, for the kind that has the number
in the header: the message is blamed for what the body is blamed for, or for what is left of the
body, or it is read. Nothing behind the body plays a part. For any octets whatever, a header that is
not that of a message in one piece is refused as a fragment, and one with a length over the limit as
too big, whatever is behind it; with a length within the limit and less than that behind it the
message is too short, whatever its kind. And a larger limit changes nothing but what was too big. -/
theorem framing_verdicts (limit : Nat) :
    (∀ (type : MessageType) (seq : UInt16) (d s : Bytes), d.length < 16777216 →
      (limit < d.length → (read limit).Fails (frame type seq d ++ s) (.tooBig d.length limit))
      ∧ (d.length ≤ limit →
        (∀ e, (Body.read type.canonical).Fails d e → (read limit).Fails (frame type seq d ++ s) e)
        ∧ (∀ b excess, (Body.read type.canonical).Accepts d b excess → excess ≠ [] →
            (read limit).Fails (frame type seq d ++ s) (.framing .bytesAfterBody))
        ∧ (∀ b, (Body.read type.canonical).Accepts d b [] →
            (read limit).Accepts (frame type seq d ++ s) ⟨seq, b⟩ s)))
    ∧ (∀ input : Bytes, 12 ≤ input.length →
      (numberAt 3 6 input ≠ 0 ∨ numberAt 3 9 input ≠ numberAt 3 1 input →
        (read limit).Fails input (.framing .fragmented))
      ∧ (numberAt 3 6 input = 0 → numberAt 3 9 input = numberAt 3 1 input →
        (limit < numberAt 3 1 input →
          (read limit).Fails input (.tooBig (numberAt 3 1 input) limit))
        ∧ (numberAt 3 1 input ≤ limit → (input.drop 12).length < numberAt 3 1 input →
          (read limit).Fails input .truncated)))
    ∧ (∀ (limit' : Nat) (input : Bytes), limit ≤ limit' →
      read limit input = read limit' input
        ∨ ∃ length, (read limit).Fails input (.tooBig length limit)) := by
  refine ⟨?_, ?_, ?_⟩
  · intro type seq d s hspan
    obtain ⟨hd, hhead, hwhole, hlength, htype, hseq⟩ :=
      exists_accepts_header_frame type seq (d := d) hspan s
    refine ⟨?_, ?_⟩
    · intro hlong
      rw [fails_read_of_header hhead]
      rw [hlength] at hlong ⊢
      exact fails_readBehind_of_lt hwhole hlong
    · intro hle
      have hbehind : readBehind limit hd = readBody hd :=
        readBehind_of_le hwhole (hlength ▸ hle)
      rw [← htype]
      refine ⟨?_, ?_, ?_⟩
      · intro e hbody
        rw [fails_read_of_header hhead, hbehind, fails_readBody hlength]
        exact .inl hbody
      · intro b excess hbody hexcess
        rw [fails_read_of_header hhead, hbehind, fails_readBody hlength]
        exact .inr ⟨b, excess, hbody, hexcess, rfl⟩
      · intro b hbody
        rw [read_eq_bind, Reader.accepts_bind_of_accepts hhead, hbehind, accepts_readBody]
        exact ⟨d, hlength, rfl, hbody, hseq⟩
  · intro input htwelve
    obtain ⟨hd, hhead⟩ := Header.takes_read.accepts_of_le input htwelve
    obtain ⟨hlength, hoffset, hfragment⟩ := Header.numberAt_of_accepts_read hhead
    simp only [fails_read_of_header hhead, hlength, hoffset, hfragment]
    refine ⟨?_, ?_⟩
    · intro hpart
      exact fails_readBehind_of_fragment (Header.isFragment_iff.mpr hpart)
    · intro hstart hend
      have hwhole : hd.isFragment = false := by
        rw [Bool.eq_false_iff, ne_eq, Header.isFragment_iff]
        simp [hstart, hend]
      refine ⟨fails_readBehind_of_lt hwhole, ?_⟩
      intro hle hshort
      rw [readBehind_of_le hwhole hle]
      exact fails_readBody_of_length_lt hshort
  · intro limit' input hle
    exact read_eq_of_le hle

/-- The octets of a challenge with a cookie of two octets, and one more. -/
def paddedChallenge : Bytes := [0xfe, 0xfd, 2, 7, 8, 9]

/-- Behind a header with the number of a challenge and not its name, the challenge is read, and the
octet that it leaves in the body is refused, while one behind the body is not. A limit below the
body's length, a fragment and a missing body are noticed first; and with the larger limit the
message that was within the smaller is read the same. -/
theorem framing_verdicts_paddedChallenge :
    (read 6).Fails (frame (.keep 3) 5 paddedChallenge ++ [1]) (.framing .bytesAfterBody)
      ∧ (∃ b, (read 6).Accepts (frame (.keep 3) 5 (paddedChallenge.take 5) ++ [1]) ⟨5, b⟩ [1])
      ∧ (read 6).Fails (frame (.keep 9) 5 paddedChallenge) (.unsupportedMessage 9)
      ∧ (read 4).Fails (frame (.keep 9) 5 paddedChallenge) (.tooBig 6 4)
      ∧ (read 4).Fails [9, 0, 0, 6, 0, 5, 0, 0, 1, 0, 0, 5] (.framing .fragmented)
      ∧ (read 4).Fails [9, 0, 0, 4, 0, 5, 0, 0, 0, 0, 0, 4, 1, 2, 3] .truncated
      ∧ read 6 (frame (.keep 3) 5 paddedChallenge) = read 60 (frame (.keep 3) 5 paddedChallenge) := by
  obtain ⟨hframe, hoctets, hlimits⟩ := framing_verdicts 6
  obtain ⟨hframe', hoctets', -⟩ := framing_verdicts 4
  let challenge : HelloVerify := ⟨Version.dtls12, ⟨[7, 8], by decide⟩⟩
  have hbody (excess : Bytes) : (Body.read (Tag.keep 3 : MessageType).canonical).Accepts
      ([0xfe, 0xfd, 2, 7, 8] ++ excess) (.helloVerify challenge) excess :=
    Reader.accepts_map.mpr ⟨challenge, HelloVerify.accepts_read.mpr rfl, rfl⟩
  refine ⟨?_, ?_, ?_, ?_, ?_, ?_, ?_⟩
  · obtain ⟨-, hfits⟩ := hframe (.keep 3) 5 paddedChallenge [1] (by decide)
    exact (hfits (by decide)).2.1 _ [9] (hbody [9]) (by decide)
  · obtain ⟨-, hfits⟩ := hframe (.keep 3) 5 (paddedChallenge.take 5) [1] (by decide)
    exact ⟨_, (hfits (by decide)).2.2 _ (hbody [])⟩
  · obtain ⟨-, hfits⟩ := hframe (.keep 9) 5 paddedChallenge [] (by decide)
    exact (hfits (by decide)).1 _ (Reader.fails_refuse.mpr rfl)
  · obtain ⟨hlong, -⟩ := hframe' (.keep 9) 5 paddedChallenge [] (by decide)
    exact hlong (by decide)
  · exact (hoctets' _ (by decide)).1 (by decide)
  · exact ((hoctets' _ (by decide)).2 (by decide) (by decide)).2 (by decide) (by decide)
  -- the two limits agree because the smaller one did not find the body too big
  · rcases hlimits 60 (frame (.keep 3) 5 paddedChallenge) (by decide) with hsame | ⟨length, hbig⟩
    · exact hsame
    · obtain ⟨-, hfits⟩ := hframe (.keep 3) 5 paddedChallenge [] (by decide)
      have hother := (hfits (by decide)).2.1 _ [9] (hbody [9]) (by decide)
      rw [List.append_nil] at hother
      exact absurd (hbig.unique hother) (by simp)

end Handshake

end DatagramHello
