/-
What twelve octets keep of a header.

A header value holds its two lengths and its offset in words of 32 bits, while
the wire has 24 for each of them. Nothing checks that the words fit. The header
of a message is made from a length that does, but a caller may make a header of
any words, and then the octets are those of what is left of each word below
2^24.

So there are more headers than twelve octets can tell apart, and the pivot is
the header that stands for all those with the same octets, `reduced`: writing it
gives the octets of the header it was made from, and it is what is read back.
From the other side nothing is lost. Any twelve octets are a header, since
neither a number nor a kind is refused, and writing that header gives them
again.
-/
import DatagramHello.Proofs.Handshake.Framing

set_option autoImplicit false

namespace DatagramHello

open Bytes (numberAt span)

namespace Header

variable {input rest : Bytes}

/-- The header as it is read back: its kind by name where it has one, and of its lengths and its
offset what 24 bits keep. -/
def reduced (hd : Header) : Header where
  type := hd.type.canonical
  length := hd.length % 16777216
  seq := hd.seq
  offset := hd.offset % 16777216
  fragmentLength := hd.fragmentLength % 16777216

/-- What is left of a word below 2^24 is what three octets say of it. -/
theorem toNat_mod_span (n : UInt32) : (n % 16777216).toNat = n.toNat % span 3 :=
  UInt32.toNat_mod n 16777216

/-- What is left of a word below 2^24 fits into three octets. -/
theorem toNat_mod_lt_span (n : UInt32) : (n % 16777216).toNat < span 3 := by
  rw [toNat_mod_span]
  exact Nat.mod_lt _ (Bytes.span_pos 3)

/-- A header and its reduced one have the same octets. -/
@[simp] theorem encode_reduced (hd : Header) : hd.reduced.encode = hd.encode := by
  simp only [reduced, encode, Tag.encode_canonical, toNat_mod_span, Bytes.bigEndian_mod]

/-- The octets of a header are read as its reduced one. -/
theorem accepts_encode (hd : Header) (rest : Bytes) :
    read.Accepts (hd.encode ++ rest) hd.reduced rest := by
  refine accepts_read.mpr ⟨hd.type.proper_canonical, toNat_mod_lt_span _, toNat_mod_lt_span _,
    toNat_mod_lt_span _, ?_⟩
  rw [encode_reduced]

/-- The kind comes first, and the sequence number behind kind and length. -/
theorem numberAt_encode (hd : Header) :
    numberAt 1 0 hd.encode = hd.type.id ∧ numberAt 2 4 hd.encode = hd.seq.toNat := by
  have hkind : hd.type.encode.length = 1 := hd.type.length_encode
  refine ⟨?_, ?_⟩
  · rw [encode, List.append_assoc, List.append_assoc, List.append_assoc]
    exact Bytes.numberAt_zero_append hd.type.id_lt
  · rw [encode, List.append_assoc, List.append_assoc]
    refine Bytes.numberAt_append ?_ hd.seq.toNat_lt
    simp [hkind]

/-- The first twelve octets of what is read as a header are the octets of that header. -/
theorem encode_of_accepts {hd : Header} (h : read.Accepts input hd rest) :
    hd.encode = input.take 12 := by
  obtain ⟨-, -, -, -, rfl⟩ := accepts_read.mp h
  exact (List.take_left' hd.length_encode).symm

/-- **Twelve octets.** A header of any kind and any words adds twelve octets to the buffer: the
number of its kind, the length, the sequence number, the offset and the fragment length, where of
each word of 32 bits there is what 24 bits keep. They are read as the header with just that, and
with its kind by name if it has one, and whatever follows them is left. From twelve octets on an
input is a header, no number in it needs more than 24 bits, writing it gives the twelve octets
again, and what is behind them is left. A shorter input is too short. -/
theorem octets_exact :
    (∀ (hd : Header) (out : Buffer) (rest : Bytes),
      Writer.put hd.encode out = ⟨out.append hd.encode, .ok ()⟩
        ∧ hd.encode.length = 12
        ∧ numberAt 1 0 hd.encode = hd.type.id
        ∧ numberAt 3 1 hd.encode = hd.length.toNat % 16777216
        ∧ numberAt 2 4 hd.encode = hd.seq.toNat
        ∧ numberAt 3 6 hd.encode = hd.offset.toNat % 16777216
        ∧ numberAt 3 9 hd.encode = hd.fragmentLength.toNat % 16777216
        ∧ read.Accepts (hd.encode ++ rest)
            { type := .ofId hd.type.id
              length := hd.length % 16777216
              seq := hd.seq
              offset := hd.offset % 16777216
              fragmentLength := hd.fragmentLength % 16777216 } rest)
    ∧ (∀ input : Bytes, 12 ≤ input.length →
        ∃ hd, read.Accepts input hd (input.drop 12)
          ∧ hd.length.toNat < 16777216 ∧ hd.offset.toNat < 16777216
          ∧ hd.fragmentLength.toNat < 16777216
          ∧ hd.encode = input.take 12)
    ∧ ∀ input : Bytes, input.length < 12 → read.Fails input .truncated := by
  refine ⟨?_, ?_, takes_read.fails_of_lt⟩
  · intro hd out rest
    have hback : read.Accepts hd.encode hd.reduced [] := by
      simpa using hd.accepts_encode []
    obtain ⟨hlength, hoffset, hfragment⟩ := numberAt_of_accepts_read hback
    obtain ⟨hkind, hseq⟩ := hd.numberAt_encode
    refine ⟨rfl, hd.length_encode, hkind, ?_, hseq, ?_, ?_, hd.accepts_encode rest⟩
    · rw [hlength]
      exact toNat_mod_span hd.length
    · rw [hoffset]
      exact toNat_mod_span hd.offset
    · rw [hfragment]
      exact toNat_mod_span hd.fragmentLength
  · intro input htwelve
    obtain ⟨hd, hread⟩ := takes_read.accepts_of_le input htwelve
    obtain ⟨-, hlength, hoffset, hfragment, -⟩ := accepts_read.mp hread
    exact ⟨hd, hread, hlength, hoffset, hfragment, encode_of_accepts hread⟩

/-- A header with the number of a challenge for a kind and with words that 24 bits do not hold. -/
def overfull : Header where
  type := .keep 3
  length := 0x01000006
  seq := 5
  offset := 0xff000000
  fragmentLength := 0x02000006

/-- The words that do not fit are read as the small ones that they leave, and so the header of a
fragment comes back as that of a whole challenge. The octets are those of a header, and eleven of
them are not. -/
theorem octets_exact_overfull :
    overfull.isFragment = true
      ∧ read.Accepts (overfull.encode ++ [9])
          (unfragmented (.registered .helloVerifyRequest) 6 5) [9]
      ∧ (∃ hd, read.Accepts (overfull.encode ++ [9]) hd [9] ∧ hd.encode = overfull.encode)
      ∧ read.Fails (overfull.encode.take 11) .truncated := by
  obtain ⟨hwrite, hread, hshort⟩ := octets_exact
  obtain ⟨-, -, -, -, -, -, -, hback⟩ := hwrite overfull Buffer.empty [9]
  obtain ⟨hd, hhead, -, -, -, hsame⟩ := hread (overfull.encode ++ [9]) (by decide)
  exact ⟨by decide, hback, ⟨hd, hhead, hsame⟩, hshort _ (by decide)⟩

end Header

end DatagramHello
