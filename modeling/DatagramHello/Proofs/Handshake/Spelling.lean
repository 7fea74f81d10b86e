/-
How many ways there are to spell a message.

Decoding forgets one thing only: whether a client hello without extensions
ended at its compression methods or with an empty extensions block, 00 00. The
writer takes the first way. So the octets written for a decoded message are the
octets it was decoded from, or those without an empty block and with both
lengths of the header two less.

The empty block is described on the octets themselves (`EndsInEmptyBlock`), not
through the value they decode to: some header of a client hello, the fields of
some hello up to the compression methods, and 00 00. That this is the same as
having been spelled the long way needs the fields to be delimited, since
otherwise the two zero octets might belong to a method list or to a block with
entries.
-/
import DatagramHello.Proofs.Handshake.Codec

set_option autoImplicit false

namespace DatagramHello.Handshake

variable {h : Handshake} {input : Bytes}

/-- The octets of a client hello that go on with 00 00 after the compression methods and end
there. -/
def EndsInEmptyBlock (bs : Bytes) : Prop :=
  ∃ (hd : Header) (c : ClientHello), hd.type = .registered .clientHello
    ∧ bs = hd.encode ++ (c.encodeFields ++ [0, 0])

/-- The number that three octets spell, two less, as three octets. -/
def twoLess (field : Bytes) : Bytes := Bytes.bigEndian 3 (Bytes.number field - 2)

/-- The octets without the last two, and with both lengths in the header two less: octets 1 to 3 are
the length, octets 9 to 11 the fragment length, and the body starts at octet 12. -/
def withoutBlock (bs : Bytes) : Bytes :=
  bs.take 1 ++ twoLess ((bs.drop 1).take 3) ++ (bs.drop 4).take 5 ++ twoLess ((bs.drop 9).take 3)
    ++ (bs.drop 12).take (bs.length - 14)

/-- What `withoutBlock` does to octets cut at the places it names. -/
theorem withoutBlock_append {kind length middle fragment body : Bytes} (hkind : kind.length = 1)
    (hlength : length.length = 3) (hmiddle : middle.length = 5) (hfragment : fragment.length = 3) :
    withoutBlock (kind ++ (length ++ (middle ++ (fragment ++ (body ++ [0, 0])))))
      = kind ++ (twoLess length ++ (middle ++ (twoLess fragment ++ body))) := by
  -- what is left behind each of the four places
  have h1 (bs : Bytes) : (kind ++ bs).drop 1 = bs := List.drop_left' hkind
  have h4 (bs : Bytes) : (kind ++ (length ++ bs)).drop 4 = bs := by
    rw [← List.append_assoc]
    exact List.drop_left' (by simp [hkind, hlength])
  have h9 (bs : Bytes) : (kind ++ (length ++ (middle ++ bs))).drop 9 = bs := by
    rw [← List.append_assoc, ← List.append_assoc]
    exact List.drop_left' (by simp [hkind, hlength, hmiddle])
  have h12 (bs : Bytes) : (kind ++ (length ++ (middle ++ (fragment ++ bs)))).drop 12 = bs := by
    rw [← List.append_assoc, ← List.append_assoc, ← List.append_assoc]
    exact List.drop_left' (by simp [hkind, hlength, hmiddle, hfragment])
  have hbody : (kind ++ (length ++ (middle ++ (fragment ++ (body ++ [0, 0]))))).length - 14
      = body.length := by
    simp only [List.length_append, hkind, hlength, hmiddle, hfragment, List.length_cons,
      List.length_nil]
    omega
  rw [withoutBlock, h1, h4, h9, h12, hbody, List.take_left' hkind, List.take_left' hlength,
    List.take_left' hmiddle, List.take_left' hfragment, List.take_left' rfl]
  simp only [List.append_assoc]

/-- Without its empty block a frame is the frame of the shorter body. -/
theorem withoutBlock_frame {type : MessageType} {seq : UInt16} {body : Bytes}
    (hspan : body.length + 2 < Bytes.span 3) :
    withoutBlock (frame type seq (body ++ [0, 0])) = frame type seq body := by
  have hshorter : body.length < Bytes.span 3 := by omega
  -- a frame, cut where `withoutBlock` cuts
  have hcut (n : Nat) (hn : n < Bytes.span 3) (bs : Bytes) :
      (Header.unfragmented type (UInt32.ofNat n) seq).encode ++ bs
        = type.encode ++ (Bytes.bigEndian 3 n ++ ((Bytes.bigEndian 2 seq.toNat
          ++ Bytes.bigEndian 3 0) ++ (Bytes.bigEndian 3 n ++ bs))) := by
    have hword : (UInt32.ofNat n).toNat = n := Bytes.toNat_word (by decide) hn
    simp [Header.encode, Header.unfragmented, hword]
  -- the length is small enough for three octets to spell it, so two can be taken off
  have hless : twoLess (Bytes.bigEndian 3 (body.length + 2)) = Bytes.bigEndian 3 body.length := by
    rw [twoLess, Bytes.number_bigEndian, Nat.mod_eq_of_lt hspan, Nat.add_sub_cancel]
  rw [frame, List.length_append, List.length_cons, List.length_singleton, hcut _ hspan,
    withoutBlock_append type.length_encode (Bytes.length_bigEndian 3 _) (by simp)
      (Bytes.length_bigEndian 3 _), hless, frame, hcut _ hshorter]

/-! ## The two spellings

Which octets end in an empty block is settled for both spellings, and the two cases of the main
result are these. -/

/-- A bare hello spelled the long way ends in an empty block. -/
theorem endsInEmptyBlock_encodeWithBlock (hbare : h.body.isBare) :
    EndsInEmptyBlock h.encodeWithBlock := by
  rcases h with ⟨seq, c | r⟩
  · have hfields : c.encode = c.encodeFields := ClientHello.encode_of_isEmpty hbare
    refine ⟨Header.unfragmented (.registered .clientHello)
      (UInt32.ofNat (c.encodeFields ++ [0, 0]).length) seq, c, rfl, ?_⟩
    rw [encodeWithBlock, frame, Body.encode, hfields]
    rfl
  · contradiction

/-- The octets that are written never end in an empty block: a block with entries is longer, and one
without is left out. -/
theorem not_endsInEmptyBlock_encode (h : Handshake) : ¬ EndsInEmptyBlock h.encode := by
  rintro ⟨hd, c, htype, heq⟩
  rw [encode, frame] at heq
  obtain ⟨hheader, hbody⟩ := List.append_inj heq (by simp)
  -- the kind is the first octet of either header
  have hkind : h.body.type.encode = hd.type.encode := by
    simp only [Header.encode, List.append_assoc] at hheader
    exact (List.append_inj hheader (by simp)).1
  rcases h with ⟨seq, c' | r⟩
  · simp only [Body.encode, ClientHello.encode] at hbody
    -- the two hellos may differ, but their fields end at the same place
    obtain ⟨-, hblock⟩ := ClientHello.delimited_encodeFields c' c _ _ hbody
    by_cases hempty : c'.extensions.isEmpty
    · rw [ClientHello.encodeExtensions, if_pos hempty] at hblock
      contradiction
    · rw [ClientHello.encodeExtensions, if_neg hempty] at hblock
      have hlength := congrArg List.length hblock
      -- a block of two octets has no entry, and then it would not have been written
      rw [Extensions.length_encode, Extensions.encodedLength] at hlength
      rcases hentries : c'.extensions.entries with _ | ⟨x, xs⟩
      · simp [Extensions.isEmpty, hentries] at hempty
      · simp [Extensions.length, hentries, Extensions.totalSize, Extension.size] at hlength
  · rw [htype] at hkind
    have hother : (Tag.registered MessageType.Name.helloVerifyRequest).encode
        = (Tag.registered MessageType.Name.clientHello).encode := hkind
    exact absurd hother (by decide)

/-- **What was decoded is written again.** The octets written for a decoded message are those it was
decoded from, unless these end in an empty block, and then those without it. They decode to the same
message, so writing what they decode to gives them again; and no more than two byte strings, under
whatever limits, decode to one message. -/
theorem write_decode (config : Config) (input : Bytes) (h : Handshake)
    (hdecode : (decode config input).value = .ok h) :
    ∃ w, (∀ out, h.write out = ⟨out.append w, .ok ()⟩)
      ∧ (¬ EndsInEmptyBlock input → w = input)
      ∧ (EndsInEmptyBlock input → w = withoutBlock input)
      ∧ (decode config w).value = .ok h
      ∧ ∃ first second, ∀ config' input', (decode config' input').value = .ok h →
          input' = first ∨ input' = second := by
  obtain ⟨hproper, hwritable, hspelled⟩ := decode_eq_ok_iff.mp hdecode
  have hlimit : h.body.length ≤ config.maxMessageLength := by
    rcases hspelled with ⟨hle, -⟩ | ⟨-, hle, -⟩ <;> omega
  refine ⟨h.encode, appends_write hwritable, ?_, ?_, ?_, h.encode, h.encodeWithBlock, ?_⟩
  · intro hplain
    rcases hspelled with ⟨-, rfl⟩ | ⟨hbare, -, rfl⟩
    · rfl
    -- what is spelled the long way does end in an empty block
    · exact absurd (endsInEmptyBlock_encodeWithBlock hbare) hplain
  · intro hblock
    rcases hspelled with ⟨-, rfl⟩ | ⟨hbare, -, rfl⟩
    -- what is spelled the short way does not
    · exact absurd hblock (not_endsInEmptyBlock_encode h)
    · have hspan := hwritable.length_lt
      rw [← Body.length_encode] at hspan
      exact (withoutBlock_frame hspan).symm
  · exact decode_eq_ok_iff.mpr ⟨hproper, hwritable, .inl ⟨hlimit, rfl⟩⟩
  -- the two spellings depend on the message alone, whatever the limit is
  · intro config' input' hdecode'
    obtain ⟨-, -, ⟨-, hshort⟩ | ⟨-, -, hlong⟩⟩ := decode_eq_ok_iff.mp hdecode'
    · exact .inl hshort
    · exact .inr hlong

/-- A hello without extensions, as a message. -/
def bareHello : Handshake := ⟨7, .clientHello .plain⟩

/-- The fields of that hello, as octets. -/
def bareFields : Bytes :=
  [0xfe, 0xfd] ++ List.replicate 32 0 ++ [0, 0, 0, 2, 0xc0, 0x2f, 1, 0]

/-- The hello decodes from a body of 44 octets that ends in an empty block, and is written as the 42
before it. -/
theorem write_decode_bareHello :
    (decode default ([1, 0, 0, 44, 0, 7, 0, 0, 0, 0, 0, 44] ++ bareFields ++ [0, 0])).value
        = .ok bareHello
      ∧ ∃ w, bareHello.write (Buffer.ofBytes [9]) = ⟨(Buffer.ofBytes [9]).append w, .ok ()⟩
          ∧ w = [1, 0, 0, 42, 0, 7, 0, 0, 0, 0, 0, 42] ++ bareFields
          ∧ (decode default w).value = .ok bareHello := by
  have hlong : [1, 0, 0, 44, 0, 7, 0, 0, 0, 0, 0, 44] ++ bareFields ++ [0, 0]
      = bareHello.encodeWithBlock := by decide
  have hproper : bareHello.Proper := ClientHello.proper_plain
  have hwritable : bareHello.body.Writable := ClientHello.writable_plain
  have hdecode : (decode default bareHello.encodeWithBlock).value = .ok bareHello :=
    decode_eq_ok_iff.mpr ⟨hproper, hwritable, .inr ⟨rfl, by decide, rfl⟩⟩
  obtain ⟨w, hwrite, -, hshort, hagain, -⟩ := write_decode default _ bareHello hdecode
  rw [hlong]
  refine ⟨hdecode, w, hwrite _, ?_, hagain⟩
  rw [hshort (endsInEmptyBlock_encodeWithBlock rfl), ← hlong]
  decide

end DatagramHello.Handshake
