/-
Lengths that cannot drift.

A body says how long it will be before it is written, and the header repeats
what it says. Nothing in the writers compares the two, and every length and
count on the way is squeezed into a field of one, two or three octets. That the
length announced is the length written, and that no field is too small for its
number, is a fact about the bounds that the parts of a message carry.

The second half is stated with encoders of their own. `encode?` differs from
what is written in one point: it gives nothing where a number does not fit its
field, while the writers would keep the low octets. So if it gives the octets
that were written, nothing was cut off anywhere among them.
-/
import DatagramHello.Proofs.Handshake.Codec

set_option autoImplicit false

namespace DatagramHello

/-! ## Encoders that cut nothing off

The writers' own encoders keep the low octets of whatever number they are given. Here each of them
has a twin that gives nothing instead, and on what can be written the two are shown to be equal,
from the tokens up. -/

/-- The octets of a number in a given width, if they can say it. -/
def Bytes.bigEndian? (width n : Nat) : Option Bytes :=
  if n < span width then some (bigEndian width n) else none

/-- A number that fits is said in full. -/
theorem Bytes.bigEndian?_of_lt {width n : Nat} (h : n < span width) :
    bigEndian? width n = some (bigEndian width n) := by
  rw [bigEndian?, if_pos h]

/-- The octets of a token, if the octet in front can say their number. -/
def Token.encode? {kind : TokenKind} (t : Token kind) : Option Bytes := do
  let length ← Bytes.bigEndian? 1 t.length
  return length ++ t.bytes

/-- The limit of a token's kind is one that an octet can say. -/
theorem Token.encode?_eq {kind : TokenKind} (t : Token kind) : t.encode? = some t.encode := by
  have hfits : t.length < Bytes.span 1 := Nat.lt_of_le_of_lt t.length_bytes kind.maxLength_lt
  rw [encode?, Bytes.bigEndian?_of_lt hfits]
  rfl

/-- The octets of an extension, if two octets can say the length of its data. -/
def Extension.encode? (x : Extension) : Option Bytes := do
  let length ← Bytes.bigEndian? 2 x.data.length
  return x.type.encode ++ length ++ x.data

/-- An extension never holds more data than two octets can say. -/
theorem Extension.encode?_eq (x : Extension) : x.encode? = some x.encode := by
  have hfits : x.data.length < Bytes.span 2 := Nat.lt_of_le_of_lt x.length_data (by decide)
  rw [encode?, Bytes.bigEndian?_of_lt hfits]
  rfl

namespace Extensions

/-- The octets of a row of extensions, if each of them can be said. -/
def encodeEntries? : List Extension → Option Bytes
  | [] => some []
  | x :: xs => do
    let first ← x.encode?
    let others ← encodeEntries? xs
    return first ++ others

/-- The octets of a block, if two octets can say its length. -/
def encode? (xs : Extensions) : Option Bytes := do
  let length ← Bytes.bigEndian? 2 xs.length
  let entries ← encodeEntries? xs.entries
  return length ++ entries

/-- A row of extensions can always be said. -/
theorem encodeEntries?_eq (xs : List Extension) :
    encodeEntries? xs = some (encodeEntries xs) := by
  induction xs with
  | nil => rfl
  | cons x xs ih =>
    rw [encodeEntries?, Extension.encode?_eq, ih, encodeEntries, encodeEntries, List.flatMap_cons]
    rfl

/-- A block that passed the writer's check can be said. -/
theorem encode?_eq {xs : Extensions} (h : xs.length ≤ 65535) : xs.encode? = some xs.encode := by
  have hfits : xs.length < Bytes.span 2 := Nat.lt_of_le_of_lt h (by decide)
  rw [encode?, Bytes.bigEndian?_of_lt hfits, encodeEntries?_eq]
  rfl

end Extensions

namespace ClientHello

/-- Nothing for a block without extensions. -/
def encodeExtensions? (xs : Extensions) : Option Bytes :=
  if xs.isEmpty then some [] else xs.encode?

/-- The same for a block that is left out when it is empty. -/
theorem encodeExtensions?_eq {xs : Extensions} (h : xs.length ≤ 65535) :
    encodeExtensions? xs = some (encodeExtensions xs) := by
  unfold encodeExtensions? encodeExtensions
  by_cases hempty : xs.isEmpty
  · rw [if_pos hempty, if_pos hempty]
  · rw [if_neg hempty, if_neg hempty, Extensions.encode?_eq h]

/-- The octets of a hello, if every length in it can be said. -/
def encode? (h : ClientHello) : Option Bytes := do
  let sessionId ← h.sessionId.encode?
  let cookie ← h.cookie.encode?
  let suites ← Bytes.bigEndian? 2 (2 * h.suites.items.length)
  let methods ← Bytes.bigEndian? 1 h.methods.items.length
  let block ← encodeExtensions? h.extensions
  return h.version.encode ++ h.random.encode ++ sessionId ++ cookie
    ++ (suites ++ Tag.encodeList h.suites.items ++ (methods ++ Tag.encodeList h.methods.items))
    ++ block

/-- The lists are bounded by their room and the block by the writer's own check. -/
theorem Writable.encode?_eq {h : ClientHello} (hw : h.Writable) : h.encode? = some h.encode := by
  have hroom := h.suites.length_items
  have hroom' := h.methods.length_items
  have hsuites : 2 * h.suites.items.length < Bytes.span 2 := by
    show 2 * h.suites.items.length < 65536
    omega
  have hmethods : h.methods.items.length < Bytes.span 1 := by
    show h.methods.items.length < 256
    omega
  rw [encode?, Token.encode?_eq, Token.encode?_eq, Bytes.bigEndian?_of_lt hsuites,
    Bytes.bigEndian?_of_lt hmethods, encodeExtensions?_eq hw.2.2]
  rfl

end ClientHello

/-- The octets of an answer, if the length of its cookie can be said. -/
def HelloVerify.encode? (r : HelloVerify) : Option Bytes := do
  let cookie ← r.cookie.encode?
  return r.version.encode ++ cookie

/-- Every answer can be said. -/
theorem HelloVerify.encode?_eq (r : HelloVerify) : r.encode? = some r.encode := by
  rw [encode?, Token.encode?_eq]
  rfl

/-- The octets of a body, if all in it can be said. -/
def Body.encode? : Body → Option Bytes
  | .clientHello h => h.encode?
  | .helloVerify r => r.encode?

/-- A body that can be written can be said. -/
theorem Body.Writable.encode?_eq {b : Body} (hw : b.Writable) : b.encode? = some b.encode := by
  rcases b with h | r
  · exact ClientHello.Writable.encode?_eq hw
  · exact r.encode?_eq

/-- The octets of a header, if its two lengths and its offset fit into three octets each. -/
def Header.encode? (h : Header) : Option Bytes := do
  let length ← Bytes.bigEndian? 3 h.length.toNat
  let offset ← Bytes.bigEndian? 3 h.offset.toNat
  let fragmentLength ← Bytes.bigEndian? 3 h.fragmentLength.toNat
  return h.type.encode ++ length ++ Bytes.bigEndian 2 h.seq.toNat ++ offset ++ fragmentLength

/-! ## The header of a message

The header is made of the body's length, in a word of 32 bits that is put down in three octets.
Neither step loses anything where the message's check was passed. -/

namespace Handshake

variable {h : Handshake}

/-- The header, then the body. -/
def encode? (h : Handshake) : Option Bytes := do
  let header ← h.header.encode?
  let body ← h.body.encode?
  return header ++ body

/-- The length of a body that passed the message's check fits into three octets. -/
theorem length_lt_span (hle : h.body.length ≤ Message.maxBodyLength) :
    h.body.length < Bytes.span 3 :=
  Nat.lt_of_le_of_lt hle (by decide)

/-- The 32-bit length of the header is the length of the body, unless the body is refused. -/
theorem toNat_length_header (hle : h.body.length ≤ Message.maxBodyLength) :
    h.header.length.toNat = h.body.length :=
  Bytes.toNat_word (by decide) (length_lt_span hle)

/-- The header of a message that passed the check is said in full. -/
theorem encode?_header (hle : h.body.length ≤ Message.maxBodyLength) :
    h.header.encode? = some h.header.encode := by
  have hlength : h.header.length.toNat < Bytes.span 3 := by
    rw [toNat_length_header hle]
    exact length_lt_span hle
  have hfragment : h.header.fragmentLength.toNat < Bytes.span 3 := hlength
  have hoffset : h.header.offset.toNat < Bytes.span 3 := Bytes.span_pos 3
  rw [Header.encode?, Bytes.bigEndian?_of_lt hlength, Bytes.bigEndian?_of_lt hoffset,
    Bytes.bigEndian?_of_lt hfragment]
  rfl

/-- The header of a message is read back, and what is behind it is left. -/
theorem accepts_header (hle : h.body.length ≤ Message.maxBodyLength) (body : Bytes) :
    Header.read.Accepts (h.header.encode ++ body) h.header body := by
  have hlength : h.header.length.toNat < Bytes.span 3 := by
    rw [toNat_length_header hle]
    exact length_lt_span hle
  exact Header.accepts_read.mpr ⟨h.body.proper_type, hlength, Bytes.span_pos 3, hlength, rfl⟩

/-- **The announced length is the length written.** A body that is written adds as many octets as it
said. A message that is written adds twelve octets and its body; the twelve are read as the header
of the message in one piece, with the length of what follows in both of its length fields, and what
follows is what the body writes by itself. Neither with the body nor with the message is any number
too large for its field. Where the body has been written behind the header, the buffer is longer by
just these two lengths; and the header says its lengths in full even for a body that turns out not
to be writable. -/
theorem lengths_agree (h : Handshake) (out : Buffer) :
    ((h.body.write out).result = .ok () →
      ∃ body, h.body.write out = ⟨out.append body, .ok ()⟩
        ∧ body.length = h.body.length
        ∧ h.body.encode? = some body)
    ∧ ((h.write out).result = .ok () →
      ∃ head body, h.write out = ⟨out.append (head ++ body), .ok ()⟩
        ∧ (∀ before, h.body.write before = ⟨before.append body, .ok ()⟩)
        ∧ head.length = 12 ∧ (head ++ body).length = 12 + h.body.length
        ∧ Header.read.Accepts (head ++ body) h.header body
        ∧ h.header.isFragment = false ∧ h.header.offset = 0
        ∧ h.header.length.toNat = body.length ∧ h.header.fragmentLength.toNat = body.length
        ∧ h.header.seq = h.seq ∧ h.header.type = h.body.type
        ∧ h.encode? = some (head ++ body))
    ∧ (∀ after, h.body.write (out.append h.header.encode) = ⟨after, .ok ()⟩ →
        after.length = out.length + Header.encodedLength + h.body.length)
    ∧ (h.body.length ≤ Message.maxBodyLength →
        h.header.length.toNat = h.body.length
          ∧ h.header.encode? = some h.header.encode) := by
  refine ⟨?_, ?_, ?_, ?_⟩
  · intro hok
    have hw := Body.writable_of_result hok
    exact ⟨h.body.encode, hw.appends out, h.body.length_encode, hw.encode?_eq⟩
  · intro hok
    have hw := writable_of_result hok
    have hle := hw.length_le
    have hlength : h.header.length.toNat = h.body.encode.length := by
      rw [toNat_length_header hle, Body.length_encode]
    have hhead : h.header.encode.length = 12 := Header.length_encode _
    have hwritten : (h.write).Appends (h.header.encode ++ h.body.encode) :=
      Message.appends_write hle hw.appends
    have hexact : h.encode? = some (h.header.encode ++ h.body.encode) := by
      rw [encode?, encode?_header hle, hw.encode?_eq]
      rfl
    refine ⟨h.header.encode, h.body.encode, hwritten out, hw.appends, hhead, ?_,
      accepts_header hle h.body.encode, ?_, rfl, hlength, hlength, rfl, rfl, hexact⟩
    · rw [List.length_append, hhead, Body.length_encode]
    · exact Header.isFragment_eq_false_iff.mpr rfl
  · intro after hafter
    have hok : (h.body.write (out.append h.header.encode)).result = .ok () := by
      rw [hafter]
    -- the body adds what it said, behind whatever stands before it
    have hrun := (Body.writable_of_result hok).appends (out.append h.header.encode)
    rw [hafter] at hrun
    have hbuffer : after = (out.append h.header.encode).append h.body.encode :=
      congrArg Written.buffer hrun
    rw [hbuffer, ← Buffer.length_toBytes, Buffer.toBytes_append, Buffer.toBytes_append,
      List.length_append, List.length_append, Buffer.length_toBytes, Header.length_encode,
      Body.length_encode]
  · intro hle
    exact ⟨toNat_length_header hle, encode?_header hle⟩

/-- A hello with a session id, a cookie and an extension of two octets. -/
def furnished : Handshake where
  seq := 7
  body := .clientHello { ClientHello.plain with
    sessionId := ⟨[31, 32, 33], by decide⟩
    cookie := ⟨[4, 5], by decide⟩
    extensions := { entries := [⟨.registered .ecPointFormats, [1, 2], by decide⟩] } }

/-- Behind the octet in the buffer come twelve of header and 55 of body, and both lengths in the
header are 55. -/
theorem lengths_agree_furnished :
    ∃ head body, furnished.write (Buffer.ofBytes [9])
          = ⟨(Buffer.ofBytes [9]).append (head ++ body), .ok ()⟩
      ∧ (head ++ body).length = 67
      ∧ Header.read.Accepts (head ++ body) ⟨.registered .clientHello, 55, 7, 0, 55⟩ body
      ∧ furnished.encode? = some (head ++ body)
      ∧ (furnished.body.write ((Buffer.ofBytes [9]).append furnished.header.encode)).buffer.length
          = 68 := by
  obtain ⟨-, hmessage, hassert, -⟩ := lengths_agree furnished (Buffer.ofBytes [9])
  obtain ⟨head, body, hwrite, hagain, -, hlength, hread, -, -, -, -, -, -, hexact⟩ := hmessage rfl
  have hbody := hagain ((Buffer.ofBytes [9]).append furnished.header.encode)
  have hafter := hassert _ hbody
  refine ⟨head, body, hwrite, hlength, hread, hexact, ?_⟩
  rw [hbody]
  exact hafter

end Handshake

end DatagramHello
