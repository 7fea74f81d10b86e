/-
A cookie is bound to the octets that were received.

The bound part of a hello is made from the decoded hello, not kept from the
message. That it is the same is not a matter of course: a decoder that changed
anything, or a writer that spelled a field in another way than it came, would
give two messages one cookie, or give an honest client another one for its
second hello.

Here the places of the fields are found in the received octets themselves, by
the lengths that stand there. Session id, cookie, suites and methods each stand
behind a length, so each says where the next one starts. The bound part is then
cut out of the message: everything up to the end of the session id, and
everything from the end of the cookie to the end of the methods. All that
decoding puts in are names for numbers, and writing takes these out again.
-/
import DatagramHello.Proofs.Cookie.Binding
import DatagramHello.Proofs.Wire.Places

set_option autoImplicit false

namespace DatagramHello

open Bytes (bigEndian fieldEnd)

/-- The end of a token is found in its length. -/
theorem Token.fieldEnd_append {kind : TokenKind} (t : Token kind) {front : Bytes} {place : Nat}
    (hplace : front.length = place) (rest : Bytes) :
    fieldEnd 1 place (front ++ (t.encode ++ rest)) = (front ++ t.encode).length :=
  Bytes.fieldEnd_append hplace rfl (Nat.lt_of_le_of_lt t.length_bytes kind.maxLength_lt)

namespace ClientHello

/-! ## The places in a body

Each place is found by the length that stands at the one before. The definitions use no reader and
work on any octets. -/

/-- The session id starts behind two octets of version and 32 of random field. -/
def sessionIdEnd (body : Bytes) : Nat := fieldEnd 1 34 body

/-- Where the cookie ends. -/
def cookieEnd (body : Bytes) : Nat := fieldEnd 1 (sessionIdEnd body) body

/-- Where the cipher suites end. -/
def suitesEnd (body : Bytes) : Nat := fieldEnd 2 (cookieEnd body) body

/-- Where the compression methods end. -/
def methodsEnd (body : Bytes) : Nat := fieldEnd 1 (suitesEnd body) body

/-- The octets from the start through the session id. -/
def beforeCookie (body : Bytes) : Bytes := body.take (sessionIdEnd body)

/-- The octets from the length of the suites through the last method. -/
def behindCookie (body : Bytes) : Bytes := (body.take (methodsEnd body)).drop (cookieEnd body)

/-! ## What stands there

In the octets of a hello the places are where its fields end, from left to right. -/

/-- The octets of the fields through the session id. -/
def encodeOpening (h : ClientHello) : Bytes :=
  h.version.encode ++ h.random.encode ++ h.sessionId.encode

/-- Version, random field and session id are delimited, so the three together are. -/
theorem delimited_encodeOpening : Delimited encodeOpening :=
  ((Version.delimited_encode.comp version).append (Random.delimited_encode.comp random)).append
    (Token.delimited_encode.comp sessionId)

/-- The bound part is the opening and the lists. -/
theorem boundPart_eq_opening (h : ClientHello) :
    h.boundPart = h.encodeOpening ++ h.encodeLists := rfl

/-- The fields are the same with the cookie in between. -/
theorem encodeFields_eq_opening (h : ClientHello) :
    h.encodeFields = h.encodeOpening ++ h.cookie.encode ++ h.encodeLists := rfl

section Fields

variable {body tail : Bytes} {h : ClientHello} (hbody : body = h.encodeFields ++ tail)

include hbody

/-- The session id of a hello ends where its opening does. -/
theorem sessionIdEnd_eq : sessionIdEnd body = h.encodeOpening.length := by
  have hplace : (h.version.encode ++ h.random.encode).length = 34 := by
    rw [List.length_append, Random.length_encode]
    rfl
  have hrow : body = (h.version.encode ++ h.random.encode)
      ++ (h.sessionId.encode ++ (h.cookie.encode ++ (h.encodeLists ++ tail))) := by
    rw [hbody, encodeFields_eq_opening, encodeOpening]
    simp only [List.append_assoc]
  rw [sessionIdEnd, hrow, h.sessionId.fieldEnd_append hplace, encodeOpening]

/-- The cookie of a hello ends where the opening and the cookie do. -/
theorem cookieEnd_eq : cookieEnd body = (h.encodeOpening ++ h.cookie.encode).length := by
  have hrow : body = h.encodeOpening ++ (h.cookie.encode ++ (h.encodeLists ++ tail)) := by
    rw [hbody, encodeFields_eq_opening]
    simp only [List.append_assoc]
  have hplace := (sessionIdEnd_eq hbody).symm
  rw [cookieEnd, ← hplace, hrow, h.cookie.fieldEnd_append rfl]

/-- The suites of a hello end where its octets up to the suites do. -/
theorem suitesEnd_eq :
    suitesEnd body
      = (h.encodeOpening ++ h.cookie.encode ++ encodeSuites h.suites).length := by
  have hrow : body = (h.encodeOpening ++ h.cookie.encode)
      ++ (encodeSuites h.suites ++ (encodeMethods h.methods ++ tail)) := by
    rw [hbody, encodeFields_eq_opening, encodeLists_eq]
    simp only [List.append_assoc]
  have hspan : 2 * h.suites.items.length < Bytes.span 2 := by
    have hmax := h.suites.length_items
    show 2 * h.suites.items.length < 65536
    omega
  rw [suitesEnd, cookieEnd_eq hbody, hrow]
  exact Bytes.fieldEnd_append rfl (Tag.length_encodeList h.suites.items) hspan

/-- The methods of a hello end where its fields do. -/
theorem methodsEnd_eq : methodsEnd body = h.encodeFields.length := by
  have hrow : body = (h.encodeOpening ++ h.cookie.encode ++ encodeSuites h.suites)
      ++ (encodeMethods h.methods ++ tail) := by
    rw [hbody, encodeFields_eq_opening, encodeLists_eq]
    simp only [List.append_assoc]
  have hspan : h.methods.items.length < Bytes.span 1 := by
    have hmax := h.methods.length_items
    show h.methods.items.length < 256
    omega
  have hone : (Tag.encodeList h.methods.items).length = h.methods.items.length := by
    rw [Tag.length_encodeList]
    exact Nat.one_mul _
  rw [methodsEnd, suitesEnd_eq hbody, hrow, encodeFields_eq_opening, encodeLists_eq]
  refine (Bytes.fieldEnd_append rfl hone hspan).trans ?_
  rw [List.append_assoc]
  rfl

/-- The places cut a body into the fields before the cookie, the cookie, the lists, and the rest. -/
theorem cut_eq :
    beforeCookie body = h.encodeOpening ∧ behindCookie body = h.encodeLists
      ∧ body.drop (methodsEnd body) = tail := by
  refine ⟨?_, ?_, ?_⟩
  · rw [beforeCookie, sessionIdEnd_eq hbody, hbody, encodeFields_eq_opening, List.append_assoc,
      List.append_assoc, List.take_left' rfl]
  · rw [behindCookie, methodsEnd_eq hbody, cookieEnd_eq hbody, hbody, List.take_left' rfl,
      encodeFields_eq_opening, List.drop_left' rfl]
  · rw [methodsEnd_eq hbody, hbody, List.drop_left' rfl]

end Fields

end ClientHello

/-! ## Received messages

A message that was decoded as a hello has a body of fields and a block, possibly an empty one,
behind twelve octets of header. Which of the two spellings it was makes no difference to the places.
-/

namespace Handshake

variable {config : Config} {input : Bytes} {seq : UInt16} {h : ClientHello}

/-- The body stands behind the twelve octets of the header. -/
theorem drop_frame (type : MessageType) (seq : UInt16) (body : Bytes) :
    (frame type seq body).drop 12 = body :=
  List.drop_left' (Header.length_encode _)

/-- The body of a hello that is accepted starts with the fields as they are written. -/
theorem exists_body_eq (hok : (decode config input).value = .ok ⟨seq, .clientHello h⟩) :
    ∃ tail, input.drop 12 = h.encodeFields ++ tail := by
  obtain ⟨-, -, ⟨-, rfl⟩ | ⟨-, -, rfl⟩⟩ := decode_eq_ok_iff.mp hok
  · exact ⟨_, drop_frame _ _ _⟩
  -- the hello with an empty block that a writer would have left out
  · refine ⟨ClientHello.encodeExtensions h.extensions ++ [0, 0], ?_⟩
    rw [← List.append_assoc]
    exact drop_frame _ _ _

/-- The bound part of a decoded hello is cut out of the octets that were received, behind the
header. -/
theorem boundPart_eq_received (hok : (decode config input).value = .ok ⟨seq, .clientHello h⟩) :
    h.boundPart
      = ClientHello.beforeCookie (input.drop 12) ++ ClientHello.behindCookie (input.drop 12) := by
  obtain ⟨tail, hbody⟩ := exists_body_eq hok
  obtain ⟨hbefore, hbehind, -⟩ := ClientHello.cut_eq hbody
  rw [hbefore, hbehind, h.boundPart_eq_opening]

/-- **What was received is what is bound.** If a message is accepted as a hello, its bound part is
the body of the message with two pieces cut out: the cookie with its length, and all that follows
the last compression method. Where the pieces start and end is read off the lengths in the body. So
the code is computed over octets of the message, and two messages have one bound part exactly if
they have the same octets there, the first part and the second each by itself. -/
theorem boundPart_received :
    (∀ (config : Config) (input : Bytes) (seq : UInt16) (h : ClientHello),
      (decode config input).value = .ok ⟨seq, .clientHello h⟩ →
        h.boundPart
            = ClientHello.beforeCookie (input.drop 12) ++ ClientHello.behindCookie (input.drop 12)
        ∧ input.drop 12
            = ClientHello.beforeCookie (input.drop 12)
              ++ (h.cookie.encode ++ (ClientHello.behindCookie (input.drop 12)
              ++ (input.drop 12).drop (ClientHello.methodsEnd (input.drop 12))))
        ∧ ∀ peer : Peer, Generator.macInput peer h
            = peer.octets ++ bigEndian 2 peer.udpPort.toNat
              ++ (ClientHello.beforeCookie (input.drop 12)
              ++ ClientHello.behindCookie (input.drop 12)))
    ∧ ∀ (config config' : Config) (input input' : Bytes) (seq seq' : UInt16)
        (h h' : ClientHello),
      (decode config input).value = .ok ⟨seq, .clientHello h⟩ →
      (decode config' input').value = .ok ⟨seq', .clientHello h'⟩ →
        (h.boundPart = h'.boundPart
          ↔ ClientHello.beforeCookie (input.drop 12) = ClientHello.beforeCookie (input'.drop 12)
            ∧ ClientHello.behindCookie (input.drop 12)
              = ClientHello.behindCookie (input'.drop 12)) := by
  refine ⟨?_, ?_⟩
  · intro config input seq h hok
    have hbound := boundPart_eq_received hok
    refine ⟨hbound, ?_, ?_⟩
    · obtain ⟨tail, hbody⟩ := exists_body_eq hok
      obtain ⟨hbefore, hbehind, hafter⟩ := ClientHello.cut_eq hbody
      rw [hbefore, hbehind, hafter, hbody, ClientHello.encodeFields_eq_opening, List.append_assoc,
        List.append_assoc]
    · intro peer
      rw [Generator.macInput, hbound]
  · intro config config' input input' seq seq' h h' hok hok'
    obtain ⟨tail, hbody⟩ := exists_body_eq hok
    obtain ⟨tail', hbody'⟩ := exists_body_eq hok'
    obtain ⟨hbefore, hbehind, -⟩ := ClientHello.cut_eq hbody
    obtain ⟨hbefore', hbehind', -⟩ := ClientHello.cut_eq hbody'
    -- the session id says where it ends, so no octet can change sides
    rw [hbefore, hbefore', hbehind, hbehind', h.boundPart_eq_opening, h'.boundPart_eq_opening,
      ClientHello.delimited_encodeOpening.append_inj_iff]

/-- A version, a random field of zeros and a session id of three octets. -/
def sentFront : Bytes := [0xfe, 0xfd] ++ List.replicate 32 0 ++ [3, 1, 2, 3]

/-- Two suites, of which one has no name, and one method. -/
def sentLists : Bytes := [0, 4, 0x13, 0x01, 0xc0, 0xa8, 1, 0]

/-- With a cookie and an empty block. -/
def sentLong : Bytes :=
  [1, 0, 0, 50, 0, 3, 0, 0, 0, 0, 0, 50] ++ (sentFront ++ [1, 9] ++ sentLists ++ [0, 0])

/-- Without either. -/
def sentShort : Bytes :=
  [1, 0, 0, 47, 0, 4, 0, 0, 0, 0, 0, 47] ++ (sentFront ++ [0] ++ sentLists)

/-- Both messages are accepted, and both are bound to the octets that they share. -/
theorem boundPart_received_sentLong :
    (decode default sentLong).value = .ok ⟨3, .clientHello Generator.namedHello⟩
      ∧ (decode default sentShort).value
          = .ok ⟨4, .clientHello (Generator.namedHello.withCookie Token.empty)⟩
      ∧ Generator.namedHello.boundPart = sentFront ++ sentLists
      ∧ Generator.namedHello.boundPart
          = (Generator.namedHello.withCookie Token.empty).boundPart := by
  obtain ⟨hbound, hsame⟩ := boundPart_received
  have hnamed : Generator.namedHello.canonical = Generator.namedHello := by decide
  have hproper : Generator.namedHello.Proper := by
    rw [← hnamed]
    exact Generator.namedHello.proper_canonical
  have hwritable : Generator.namedHello.Writable := ⟨by decide, by decide, by decide⟩
  have hlong : (decode default sentLong).value = .ok ⟨3, .clientHello Generator.namedHello⟩ :=
    decode_eq_ok_iff.mpr ⟨hproper, hwritable, .inr ⟨rfl, by decide, by decide⟩⟩
  have hshort : (decode default sentShort).value
      = .ok ⟨4, .clientHello (Generator.namedHello.withCookie Token.empty)⟩ :=
    decode_eq_ok_iff.mpr ⟨hproper, hwritable, .inl ⟨by decide, by decide⟩⟩
  refine ⟨hlong, hshort, ?_, ?_⟩
  · rw [(hbound _ _ _ _ hlong).1]
    decide
  · exact (hsame _ _ _ _ _ _ _ _ hlong hshort).mpr ⟨by decide, by decide⟩

end Handshake

end DatagramHello
