/-
Handshake messages and their octets.

A message is a frame: an unfragmented header that announces the length of the
body, and the body. The header delimits the body exactly, and that is what the
optional block at the end of a client hello needs, since it is recognised by
nothing but octets being left. So a frame followed by anything is read as the
frame alone would be (`accepts_read`), and what is accepted as one message is
known to the octet (`decode_eq_ok_iff`): the octets that are written, and for a
hello without extensions also those with an empty block and a length that
counts it.
-/
import DatagramHello.Handshake.Basic
import DatagramHello.Proofs.Hello.Codec

set_option autoImplicit false

namespace DatagramHello

variable {input rest : Bytes}

/-! ## The header

The header of a message in one piece says its length twice and has no offset. Any twelve octets are
a header; `isFragment` tells whether they are one of these. -/

namespace Header

/-- A header is read exactly where its octets stand, and its three 24-bit fields are that small. -/
theorem accepts_read {hd : Header} :
    read.Accepts input hd rest
      ↔ hd.type.Proper ∧ hd.length.toNat < Bytes.span 3 ∧ hd.offset.toNat < Bytes.span 3
        ∧ hd.fragmentLength.toNat < Bytes.span 3 ∧ input = hd.encode ++ rest := by
  simp only [read, Reader.accepts_bind, Tag.accepts_read, Reader.accepts_number,
    Reader.accepts_pure]
  -- a 24-bit number is not changed by the 32-bit field that keeps it
  have hkeep (n : Fin (Bytes.span 3)) : (UInt32.ofNat n.val).toNat = n.val :=
    Bytes.toNat_word (by decide) n.isLt
  have hkeep16 (n : Fin (Bytes.span 2)) : (UInt16.ofNat n.val).toNat = n.val :=
    Bytes.toNat_halfword n.isLt
  constructor
  · rintro ⟨type, _, ⟨hproper, rfl⟩, length, _, rfl, seq, _, rfl, offset, _, rfl, fragment, _, rfl,
      rfl, rfl⟩
    simp only [hkeep, encode, hkeep16]
    refine ⟨hproper, length.isLt, offset.isLt, fragment.isLt, ?_⟩
    simp
  · rintro ⟨hproper, hlength, hoffset, hfragment, rfl⟩
    refine ⟨hd.type, _, ⟨hproper, ?_⟩, ⟨hd.length.toNat, hlength⟩, _, rfl,
      ⟨hd.seq.toNat, hd.seq.toNat_lt⟩, _, rfl, ⟨hd.offset.toNat, hoffset⟩, _, rfl,
      ⟨hd.fragmentLength.toNat, hfragment⟩, rest, rfl, ?_, rfl⟩
    · simp [encode]
    · simp

/-- The headers that are no fragments are those made for a message in one piece. -/
theorem isFragment_eq_false_iff {hd : Header} :
    hd.isFragment = false ↔ hd = unfragmented hd.type hd.length hd.seq := by
  rcases hd with ⟨type, length, seq, offset, fragment⟩
  simp [isFragment, unfragmented]

/-- The header of a message in one piece is read back with its kind by name. -/
theorem accepts_unfragmented (type : MessageType) (seq : UInt16) {n : Nat}
    (hn : n < Bytes.span 3) (rest : Bytes) :
    read.Accepts ((unfragmented type (UInt32.ofNat n) seq).encode ++ rest)
      (unfragmented type.canonical (UInt32.ofNat n) seq) rest := by
  have hword : (UInt32.ofNat n).toNat < Bytes.span 3 := by
    rw [Bytes.toNat_word (by decide) hn]
    exact hn
  refine accepts_read.mpr ⟨type.proper_canonical, hword, Bytes.span_pos 3, hword, ?_⟩
  simp only [encode, unfragmented, Tag.encode_canonical]

end Header

/-! ## Bodies

There are two kinds of body with a reader. Of an answer there is nothing to be asked, and of a hello
what its own codec asks, so a body passes the question on. -/

namespace Body

/-- Every tag in the body goes by its name where it has one. -/
def Proper : Body → Prop
  | .clientHello h => h.Proper
  | .helloVerify _ => True

/-- The body as it is read back. -/
def canonical : Body → Body
  | .clientHello h => .clientHello h.canonical
  | .helloVerify r => .helloVerify r

/-- What has to hold for the body to be written. -/
def Writable : Body → Prop
  | .clientHello h => h.Writable
  | .helloVerify _ => True

/-- The octets of the body. -/
def encode : Body → Bytes
  | .clientHello h => h.encode
  | .helloVerify r => r.encode

/-- The body of a client hello without extensions, which has a second way to be spelled. -/
def isBare : Body → Bool
  | .clientHello h => h.extensions.isEmpty
  | .helloVerify _ => false

variable {b : Body}

/-- Making a body proper does not change its kind. -/
@[simp] theorem type_canonical (b : Body) : b.canonical.type = b.type := by
  rcases b with h | r <;> rfl

/-- Making a body proper does not change its octets. -/
@[simp] theorem encode_canonical (b : Body) : b.canonical.encode = b.encode := by
  rcases b with h | r
  · exact h.encode_canonical
  · rfl

/-- The canonical form of a body is proper. -/
theorem proper_canonical (b : Body) : b.canonical.Proper := by
  rcases b with h | r
  · exact h.proper_canonical
  · trivial

/-- A proper body is its own canonical form. -/
theorem Proper.canonical_eq (hp : b.Proper) : b.canonical = b := by
  rcases b with h | r
  · exact congrArg Body.clientHello (ClientHello.Proper.canonical_eq hp)
  · rfl

/-- Making a body proper has no say in whether it can be written. -/
theorem writable_canonical : b.canonical.Writable ↔ b.Writable := by
  rcases b with h | r
  · exact ClientHello.writable_canonical
  · exact Iff.rfl

/-- The body is as long as announced. -/
theorem length_encode (b : Body) : b.encode.length = b.length := by
  rcases b with h | r
  · exact h.length_encode
  · exact r.length_encode

/-- Both kinds of body have a name. -/
theorem proper_type (b : Body) : b.type.Proper := by
  rcases b with h | r <;> trivial

/-- A body that can be written leaves room in the 24 bits of its length, also for an empty block. -/
theorem Writable.length_lt (hw : b.Writable) : b.length + 2 < Bytes.span 3 := by
  have hspan : Bytes.span 3 = 16777216 := rfl
  rcases b with h | r
  · have hle : h.bodyLength ≤ 65995 := ClientHello.Writable.bodyLength_le hw
    simp only [length]
    omega
  · have hcookie : r.cookie.length ≤ 255 := r.cookie.length_bytes
    simp only [length, HelloVerify.bodyLength]
    omega

/-- A body that can be written is written as its octets. -/
theorem Writable.appends (hw : b.Writable) : b.write.Appends b.encode := by
  rcases b with h | r
  · exact ClientHello.Writable.appends hw
  · exact Writer.appends_put r.encode

/-- A body that was written could be. -/
theorem writable_of_result {out : Buffer} (hok : (b.write out).result = .ok ()) :
    b.Writable := by
  rcases b with h | r
  · exact ClientHello.writable_of_result hok
  · trivial

/-- The bodies that are read as `b`: its octets, and with an empty block behind if it is bare. -/
theorem accepts_read {type : MessageType} {bytes : Bytes} :
    (read type).Accepts bytes b []
      ↔ type = b.type ∧ b.Proper ∧ b.Writable
        ∧ (bytes = b.encode ∨ b.isBare ∧ bytes = b.encode ++ [0, 0]) := by
  unfold read
  split
  · rw [Reader.accepts_map]
    constructor
    · rintro ⟨h, hread, rfl⟩
      exact ⟨rfl, ClientHello.accepts_body_iff.mp hread⟩
    · rintro ⟨htype, hbody⟩
      rcases b with h | r
      · exact ⟨h, ClientHello.accepts_body_iff.mpr hbody, rfl⟩
      · simp [Body.type] at htype
  · rw [Reader.accepts_map]
    constructor
    · rintro ⟨r, hread, rfl⟩
      rw [HelloVerify.accepts_read, List.append_nil] at hread
      exact ⟨rfl, trivial, trivial, .inl hread⟩
    · rintro ⟨htype, -, -, hbytes⟩
      rcases b with h | r
      · simp [Body.type] at htype
      · rcases hbytes with rfl | ⟨hbare, -⟩
        · exact ⟨r, HelloVerify.accepts_read.mpr (List.append_nil _).symm, rfl⟩
        · contradiction
  case h_3 hclient hverify =>
    constructor
    · intro h
      exact absurd h Reader.not_accepts_refuse
    · rintro ⟨rfl, -⟩
      rcases b with h | r
      · exact absurd rfl hclient
      · exact absurd rfl hverify

end Body

/-! ## Messages

The header announces the body's length, and the reader takes exactly so many octets before it looks
into them. `read_eq_bind` cuts the reader behind the header, since the limit and the fragment are
decided there and the body afterwards. -/

/-- A body that can be written is never too long for a header. -/
theorem Body.Writable.length_le {b : Body} (hw : b.Writable) :
    b.length ≤ Message.maxBodyLength := by
  have hlt := hw.length_lt
  have hspan : Bytes.span 3 = Message.maxBodyLength + 1 := rfl
  omega

/-- A message whose body appends its octets appends them behind its header. -/
theorem Message.appends_write {m : Message} {seq : UInt16} {body : Bytes}
    (hlength : m.bodyLength ≤ maxBodyLength) (hbody : m.writeBody.Appends body) :
    (m.write seq).Appends ((m.header seq).encode ++ body) := by
  rw [Message.write, if_neg (Nat.not_lt.mpr hlength)]
  exact ((Writer.appends_put _).andThen hbody).restoring

/-- A message that was written had its body written. -/
theorem Message.result_writeBody {m : Message} {seq : UInt16} {out : Buffer}
    (hok : (m.write seq out).result = .ok ()) :
    (m.writeBody (out.append (m.header seq).encode)).result = .ok () := by
  unfold Message.write at hok
  by_cases hlong : maxBodyLength < m.bodyLength
  · rw [if_pos hlong] at hok
    contradiction
  · rw [if_neg hlong, Writer.result_restoring] at hok
    exact hok

namespace Handshake

variable {h : Handshake}

/-- A body behind the header of a message in one piece. -/
def frame (type : MessageType) (seq : UInt16) (body : Bytes) : Bytes :=
  (Header.unfragmented type (UInt32.ofNat body.length) seq).encode ++ body

/-- The octets of the message: its body, framed. -/
def encode (h : Handshake) : Bytes := frame h.body.type h.seq h.body.encode

/-- The octets of the message with an empty extensions block behind its body. -/
def encodeWithBlock (h : Handshake) : Bytes := frame h.body.type h.seq (h.body.encode ++ [0, 0])

/-- A message is proper if its body is, since the kind in its header is the body's. -/
def Proper (h : Handshake) : Prop := h.body.Proper

/-- The message as it is read back: every tag by its name where it has one, and nothing else
changed. -/
def canonical (h : Handshake) : Handshake := ⟨h.seq, h.body.canonical⟩

/-- Making a message proper does not change its octets. -/
@[simp] theorem encode_canonical (h : Handshake) : h.canonical.encode = h.encode := by
  simp [encode, canonical]

/-- A proper message is its own canonical form. -/
theorem Proper.canonical_eq (hp : h.Proper) : h.canonical = h := by
  rw [canonical, Body.Proper.canonical_eq hp]

/-- Reads the body that a header announces. -/
def readBody (header : Header) : Reader Handshake := do
  let field ← Reader.take header.length.toNat
  let (body, excess) ← Reader.inside field.bytes (Body.read header.type)
  if excess.isEmpty then
    pure ⟨header.seq, body⟩
  else
    Reader.refuse (.bytesAfterBody header.type excess.length) (.framing .bytesAfterBody)

/-- Reads what is behind a header, if the header is that of a message in one piece and within the
limit. -/
def readBehind (limit : Nat) (header : Header) : Reader Handshake :=
  if header.isFragment then
    Reader.refuse
      (.fragment header.type header.offset.toNat header.fragmentLength.toNat header.length.toNat)
      (.framing .fragmented)
  else if limit < header.length.toNat then
    Reader.fail (.tooBig header.length.toNat limit)
  else
    readBody header

/-- The reader of messages, cut in two behind the header. -/
theorem read_eq_bind (limit : Nat) : read limit = Header.read >>= readBehind limit := rfl

/-- The announced octets are read by the reader of their kind, which leaves none of them. -/
theorem accepts_readBody {hd : Header} :
    (readBody hd).Accepts input h rest
      ↔ ∃ body : Bytes, body.length = hd.length.toNat ∧ input = body ++ rest
          ∧ (Body.read hd.type).Accepts body h.body [] ∧ hd.seq = h.seq := by
  simp only [readBody, Reader.accepts_bind, Reader.accepts_take]
  constructor
  · rintro ⟨field, _, rfl, ⟨body, excess⟩, _, hinside, hread⟩
    obtain ⟨hbody, rfl⟩ := Reader.accepts_inside.mp hinside
    -- the body's own reader must have used up the announced length
    by_cases hexcess : excess.isEmpty
    · rw [if_pos hexcess, Reader.accepts_pure] at hread
      obtain ⟨rfl, rfl⟩ := hread
      rw [List.isEmpty_iff.mp hexcess] at hbody
      exact ⟨field.bytes, field.length_bytes, rfl, hbody, rfl⟩
    · rw [if_neg hexcess] at hread
      exact absurd hread Reader.not_accepts_refuse
  · rintro ⟨body, hlength, rfl, hbody, hseq⟩
    refine ⟨⟨body, hlength⟩, rest, rfl, (h.body, []), rest, ?_, ?_⟩
    · exact Reader.accepts_inside.mpr ⟨hbody, rfl⟩
    · simp [hseq]

/-- What the reader asks for, check by check. -/
theorem accepts_read_steps {limit : Nat} :
    (read limit).Accepts input h rest
      ↔ ∃ (hd : Header) (body : Bytes), Header.read.Accepts input hd (body ++ rest)
          ∧ hd.isFragment = false ∧ hd.length.toNat ≤ limit ∧ body.length = hd.length.toNat
          ∧ (Body.read hd.type).Accepts body h.body [] ∧ hd.seq = h.seq := by
  simp only [read_eq_bind, readBehind, Reader.accepts_bind, Reader.accepts_ite_refuse,
    Reader.accepts_ite_fail, accepts_readBody, Bool.not_eq_true, Nat.not_lt]
  constructor
  · rintro ⟨hd, _, hhead, hwhole, hlimit, body, hlength, rfl, hbody, hseq⟩
    exact ⟨hd, body, hhead, hwhole, hlimit, hlength, hbody, hseq⟩
  · rintro ⟨hd, body, hhead, hwhole, hlimit, hlength, hbody, hseq⟩
    exact ⟨hd, _, hhead, hwhole, hlimit, body, hlength, rfl, hbody, hseq⟩

/-- A message is read exactly as the frame of a body that its own reader takes whole. -/
theorem accepts_read {limit : Nat} :
    (read limit).Accepts input h rest
      ↔ ∃ body : Bytes, body.length < Bytes.span 3 ∧ body.length ≤ limit
          ∧ (Body.read h.body.type).Accepts body h.body []
          ∧ input = frame h.body.type h.seq body ++ rest := by
  rw [accepts_read_steps]
  constructor
  · rintro ⟨hd, body, hhead, hfragment, hlimit, hlength, hbody, hseq⟩
    obtain ⟨-, hspan, -, -, rfl⟩ := Header.accepts_read.mp hhead
    obtain ⟨htype, -⟩ := Body.accepts_read.mp hbody
    -- a header that is no fragment is known from its kind, length and number
    have hframe : hd = Header.unfragmented h.body.type (UInt32.ofNat body.length) h.seq := by
      rw [hlength, UInt32.ofNat_toNat, ← htype, ← hseq]
      exact Header.isFragment_eq_false_iff.mp hfragment
    rw [htype] at hbody
    refine ⟨body, hlength ▸ hspan, hlength ▸ hlimit, hbody, ?_⟩
    rw [frame, ← hframe, List.append_assoc]
  · rintro ⟨body, hspan, hlimit, hbody, rfl⟩
    have hlength : (UInt32.ofNat body.length).toNat = body.length :=
      Bytes.toNat_word (by decide) hspan
    have hhead := Header.accepts_unfragmented h.body.type h.seq hspan (body ++ rest)
    rw [h.body.proper_type.canonical_eq, ← List.append_assoc] at hhead
    refine ⟨_, body, hhead, Header.isFragment_eq_false_iff.mpr rfl, ?_, hlength.symm, hbody, rfl⟩
    rwa [Header.unfragmented, hlength]

/-- **What is accepted as one message.** The octets that are written, if the body is within the
limit, and for a client hello without extensions also those with an empty block, if the longer body
is within it. -/
theorem decode_eq_ok_iff {config : Config} :
    (decode config input).value = .ok h
      ↔ h.Proper ∧ h.body.Writable
        ∧ (h.body.length ≤ config.maxMessageLength ∧ input = h.encode
          ∨ h.body.isBare ∧ h.body.length + 2 ≤ config.maxMessageLength
            ∧ input = h.encodeWithBlock) := by
  rw [decode, Reader.whole_eq_ok_iff, accepts_read]
  simp only [Body.accepts_read, true_and, List.append_nil]
  constructor
  · rintro ⟨body, -, hlimit, ⟨hproper, hwritable, hbody⟩, rfl⟩
    refine ⟨hproper, hwritable, ?_⟩
    rcases hbody with rfl | ⟨hbare, rfl⟩
    -- the limit was asked of the body as it was spelled
    · rw [Body.length_encode] at hlimit
      exact .inl ⟨hlimit, rfl⟩
    · rw [List.length_append, Body.length_encode] at hlimit
      exact .inr ⟨hbare, hlimit, rfl⟩
  · rintro ⟨hproper, hwritable, ⟨hlimit, rfl⟩ | ⟨hbare, hlimit, rfl⟩⟩
    · have := hwritable.length_lt
      refine ⟨h.body.encode, ?_, ?_, ⟨hproper, hwritable, .inl rfl⟩, rfl⟩
      · rw [Body.length_encode]
        omega
      · rw [Body.length_encode]
        exact hlimit
    · refine ⟨h.body.encode ++ [0, 0], ?_, ?_, ⟨hproper, hwritable, .inr ⟨hbare, rfl⟩⟩, rfl⟩
      · rw [List.length_append, Body.length_encode]
        exact hwritable.length_lt
      · rw [List.length_append, Body.length_encode]
        exact hlimit

/-- The octets of a message are read back, whatever follows them. -/
theorem accepts_encode {limit : Nat} (hw : h.body.Writable) (hlimit : h.body.length ≤ limit) :
    (read limit).Accepts (h.encode ++ rest) h.canonical rest := by
  have hspan := hw.length_lt
  refine accepts_read.mpr ⟨h.body.encode, ?_, ?_, ?_, ?_⟩
  · rw [Body.length_encode]
    omega
  · rw [Body.length_encode]
    exact hlimit
  · refine Body.accepts_read.mpr ⟨rfl, h.body.proper_canonical, Body.writable_canonical.mpr hw, ?_⟩
    exact .inl h.body.encode_canonical.symm
  · simp [encode, canonical]

/-- A message that can be written, of a body within the limit, is decoded from its octets. -/
theorem decode_encode {config : Config} (hw : h.body.Writable)
    (hlimit : h.body.length ≤ config.maxMessageLength) :
    (decode config h.encode).value = .ok h.canonical := by
  have hread : (read config.maxMessageLength).Accepts (h.encode ++ []) h.canonical [] :=
    accepts_encode hw hlimit
  rw [List.append_nil] at hread
  exact Reader.whole_eq_ok_iff.mpr hread

/-! ## Writing

A message puts its header down and then its body. The body cannot fail any more where the message is
writable, so nothing is cut back. -/

/-- A message is written as its octets if its body can be. -/
theorem appends_write (hw : h.body.Writable) : h.write.Appends h.encode := by
  rw [encode, frame, Body.length_encode]
  exact Message.appends_write hw.length_le hw.appends

/-- A message that was written has a body that could be. -/
theorem writable_of_result {out : Buffer} (hok : (h.write out).result = .ok ()) :
    h.body.Writable :=
  Body.writable_of_result (Message.result_writeBody hok)

end Handshake

end DatagramHello
