/-
Cookies and the two address families.

The input of the code is address, port and bound part in a row, and nothing in
it says whether the address has 4 or 16 octets. From a peer of one family to a
peer of the other every field lies twelve octets further on: the long address
ends in the port, the version, the clock and the first random octets of the
hello on the other side, and what follows moves up from there. Most of these
octets are the sender's to choose. What decides is the end, where the session
id and the lists of the one hello, without their first twelve octets, have to
be the session id and the lists of the other (`exists_straddles_iff`).

So there are two hellos with one input, at peers of different families, and
the cookie issued to the one passes for the other whatever the code. A hello
never stands for itself in this way, nor for another with a session id of the
same length and lists of the same lengths (`macInput_ne_of_length`).
-/
import DatagramHello.Proofs.Cookie.Generator
import DatagramHello.Proofs.Hello.Codec

set_option autoImplicit false

namespace DatagramHello

open Bytes (bigEndian)

/-! ## Fields for octets

Most octets of an input lie in fields that can hold any octets. So a hello with given octets in them
can be built. -/

/-- Any two octets are a port. -/
theorem exists_udpPort (bs : Bytes) (hlength : bs.length = 2) :
    ∃ q : UInt16, bigEndian 2 q.toNat = bs := by
  refine ⟨UInt16.ofNat (Bytes.number bs), ?_⟩
  rw [Bytes.toNat_halfword (Bytes.number_lt hlength)]
  exact Bytes.bigEndian_number hlength

/-! ## Inputs of both families

Two inputs, one of each family, are cut at the places of the IPv4 one. The first 40 octets of it are
compared with fields of the IPv6 one, and what is left is the tail. -/

/-- The bound part behind its fields of fixed length: the session id and both lists. -/
def ClientHello.boundTail (h : ClientHello) : Bytes := h.sessionId.encode ++ h.encodeLists

/-- The bound part is version, random field and its tail. -/
theorem ClientHello.boundPart_eq (h : ClientHello) :
    h.boundPart = h.version.encode ++ h.random.encode ++ h.boundTail := by
  rw [boundPart, boundTail, List.append_assoc _ h.sessionId.encode]

/-- The fields of the hello `h` at the short address `a`, port `p`, are those of the hello `k` at
the long address `b`, port `q`, twelve octets further on. -/
structure Straddles (a : Octets 4) (p : UInt16) (h : ClientHello) (b : Octets 16) (q : UInt16)
    (k : ClientHello) : Prop where
  /-- The long address goes on into the clock and the first random octets. -/
  address : b.bytes = a.bytes ++ bigEndian 2 p.toNat ++ h.version.encode ++ h.random.encode.take 8
  udpPort : bigEndian 2 q.toNat = (h.random.encode.drop 8).take 2
  version : k.version.encode = (h.random.encode.drop 10).take 2
  random : k.random.encode = h.random.encode.drop 12 ++ h.boundTail.take 12
  tail : k.boundTail = h.boundTail.drop 12

namespace Generator

variable {a : Octets 4} {b : Octets 16} {p q : UInt16} {scope flow : UInt32} {h k : ClientHello}

/-- At an IPv4 peer 40 octets stand in front of the tail. -/
theorem length_macInput_ipv4 :
    (macInput (.ipv4 a p) h).length = 40 + h.boundTail.length := by
  simp [macInput, ClientHello.boundPart_eq, Peer.octets, a.length_bytes, Version.encode,
    Random.encodedLength]
  omega

/-- At an IPv6 peer 52 octets stand in front of the tail. -/
theorem length_macInput_ipv6 :
    (macInput (.ipv6 b q scope flow) k).length = 52 + k.boundTail.length := by
  simp [macInput, ClientHello.boundPart_eq, Peer.octets, b.length_bytes, Version.encode,
    Random.encodedLength]
  omega

/-- The input at a short address, cut where the fields at a long address end. -/
theorem macInput_ipv4_cut (a : Octets 4) (p : UInt16) (h : ClientHello) :
    macInput (.ipv4 a p) h
      = (a.bytes ++ bigEndian 2 p.toNat ++ h.version.encode ++ h.random.encode.take 8)
        ++ ((h.random.encode.drop 8).take 2 ++ ((h.random.encode.drop 10).take 2
        ++ ((h.random.encode.drop 12 ++ h.boundTail.take 12) ++ h.boundTail.drop 12))) := by
  have hrandom : h.random.encode
      = h.random.encode.take 8 ++ ((h.random.encode.drop 8).take 2
        ++ ((h.random.encode.drop 10).take 2 ++ h.random.encode.drop 12)) := by
    have h10 : h.random.encode.drop 10
        = (h.random.encode.drop 10).take 2 ++ h.random.encode.drop 12 := by
      rw [← List.drop_drop (i := 2) (j := 10), List.take_append_drop]
    have h8 : h.random.encode.drop 8
        = (h.random.encode.drop 8).take 2 ++ h.random.encode.drop 10 := by
      rw [← List.drop_drop (i := 2) (j := 8), List.take_append_drop]
    rw [← h10, ← h8, List.take_append_drop]
  have htail := (List.take_append_drop 12 h.boundTail).symm
  rw [macInput, ClientHello.boundPart_eq]
  conv => lhs; rw [hrandom, htail]
  simp only [Peer.octets, Peer.udpPort, List.append_assoc]

/-- The input at an IPv6 peer, as a row of its fields. -/
theorem macInput_ipv6_eq (b : Octets 16) (q : UInt16) (scope flow : UInt32) (k : ClientHello) :
    macInput (.ipv6 b q scope flow) k
      = b.bytes ++ (bigEndian 2 q.toNat ++ (k.version.encode
        ++ (k.random.encode ++ k.boundTail))) := by
  simp only [macInput, ClientHello.boundPart_eq, Peer.octets, Peer.udpPort, List.append_assoc]

/-- Peers of different families have one input exactly where the fields straddle. -/
theorem macInput_eq_iff_straddles :
    macInput (.ipv4 a p) h = macInput (.ipv6 b q scope flow) k ↔ Straddles a p h b q k := by
  constructor
  · intro heq
    -- the lengths agree, so the tail is long enough to fill the random field
    have hlength := congrArg List.length heq
    rw [length_macInput_ipv4, length_macInput_ipv6] at hlength
    rw [macInput_ipv4_cut, macInput_ipv6_eq] at heq
    obtain ⟨haddress, heq⟩ := List.append_inj heq (by
      simp [a.length_bytes, b.length_bytes, Version.encode, Random.encodedLength])
    obtain ⟨hport, heq⟩ := List.append_inj heq (by simp [Random.encodedLength])
    obtain ⟨hversion, heq⟩ := List.append_inj heq (by
      simp [Version.encode, Random.encodedLength])
    obtain ⟨hrandom, htail⟩ := List.append_inj heq (by
      simp [Random.encodedLength]
      omega)
    exact ⟨haddress.symm, hport.symm, hversion.symm, hrandom.symm, htail.symm⟩
  · rintro ⟨haddress, hport, hversion, hrandom, htail⟩
    rw [macInput_ipv4_cut, macInput_ipv6_eq, ← haddress, ← hport, ← hversion, ← hrandom, ← htail]

/-- Twelve octets of the tail go into the random field on the other side. -/
theorem length_of_macInput_eq (h' : macInput (.ipv4 a p) h = macInput (.ipv6 b q scope flow) k) :
    h.boundTail.length = 12 + k.boundTail.length := by
  have hlength := congrArg List.length h'
  rw [length_macInput_ipv4, length_macInput_ipv6] at hlength
  omega

/-- Hellos with tails of one length, such as a hello and itself, have two inputs at peers of two
families. -/
theorem macInput_ne_of_length (hlength : h.boundTail.length = k.boundTail.length) :
    macInput (.ipv4 a p) h ≠ macInput (.ipv6 b q scope flow) k := by
  intro heq
  have := length_of_macInput_eq heq
  omega

/-- Whether a hello at a short address has a counterpart at a long one is decided by its tail. -/
theorem exists_straddles_iff :
    (∃ b q k, Straddles a p h b q k) ↔ ∃ k : ClientHello, k.boundTail = h.boundTail.drop 12 := by
  constructor
  · rintro ⟨b, q, k, hstraddles⟩
    exact ⟨k, hstraddles.tail⟩
  · rintro ⟨k, htail⟩
    -- something is left of the tail, so twelve octets of it can go into the random field
    have hlong : 12 < h.boundTail.length := by
      have hlength := congrArg List.length htail
      rw [List.length_drop, ClientHello.boundTail, List.length_append, Token.length_encode]
        at hlength
      omega
    have haddress : (a.bytes ++ bigEndian 2 p.toNat ++ h.version.encode
        ++ h.random.encode.take 8).length = 16 := by
      simp [a.length_bytes, Version.encode, Random.encodedLength]
    obtain ⟨q, hport⟩ := exists_udpPort ((h.random.encode.drop 8).take 2)
      (by simp [Random.encodedLength])
    obtain ⟨v, hversion⟩ := Version.exists_encode ((h.random.encode.drop 10).take 2)
      (by simp [Random.encodedLength])
    obtain ⟨r, hrandom⟩ :=
      Random.exists_encode (h.random.encode.drop 12 ++ h.boundTail.take 12) (by
        simp [Random.encodedLength]
        omega)
    -- every field but the tail is free, so it is what the octets say
    exact ⟨⟨_, haddress⟩, q, { k with version := v, random := r }, rfl, hport, hversion, hrandom,
      htail⟩

/-- **Cookies across the families.** A peer of either family has the input of a peer of the other,
each with its hello, exactly where their fields straddle; and exactly there the cookie issued to
either passes for the other under every generator. -/
theorem passes_across_families_iff (a : Octets 4) (p : UInt16) (h : ClientHello) (b : Octets 16)
    (q : UInt16) (scope flow : UInt32) (k : ClientHello) :
    (macInput (.ipv4 a p) h = macInput (.ipv6 b q scope flow) k ↔ Straddles a p h b q k)
      ∧ ((∀ g : Generator, ∃ c, g.compute (.ipv4 a p) h = .ok c
            ∧ (g.verify (.ipv6 b q scope flow) (k.withCookie c)).value = true)
          ↔ Straddles a p h b q k)
      ∧ ((∀ g : Generator, ∃ c, g.compute (.ipv6 b q scope flow) k = .ok c
            ∧ (g.verify (.ipv4 a p) (h.withCookie c)).value = true)
          ↔ Straddles a p h b q k) := by
  refine ⟨macInput_eq_iff_straddles, ?_, ?_⟩
  · rw [passes_iff_macInput_eq]
    exact macInput_eq_iff_straddles
  · rw [passes_iff_macInput_eq, eq_comm]
    exact macInput_eq_iff_straddles

/-- The hello that a client at 192.0.2.1 gets a cookie for. Its session id ends in the octet 0. -/
def issuedHello : ClientHello :=
  { ClientHello.plain with
    random := ⟨0x01020304,
      ⟨[0x05, 0x06, 0x07, 0x08, 0x16, 0x34, 0xfe, 0xfd, 0x0d, 0x0e, 0x0f, 0x10, 0x11, 0x12, 0x13,
        0x14, 0x15, 0x16, 0x17, 0x18, 0x19, 0x1a, 0x1b, 0x1c, 0x1d, 0x1e, 0x1f, 0x20], rfl⟩⟩
    sessionId :=
      ⟨[0xa1, 0xa2, 0xa3, 0xa4, 0xa5, 0xa6, 0xa7, 0xa8, 0xa9, 0xaa, 0xab, 0x00], by decide⟩ }

/-- The hello that the cookie passes for at a long address. -/
def spoofedHello : ClientHello :=
  { ClientHello.plain with
    random := ⟨0x0d0e0f10,
      ⟨[0x11, 0x12, 0x13, 0x14, 0x15, 0x16, 0x17, 0x18, 0x19, 0x1a, 0x1b, 0x1c, 0x1d, 0x1e, 0x1f,
        0x20, 0x0c, 0xa1, 0xa2, 0xa3, 0xa4, 0xa5, 0xa6, 0xa7, 0xa8, 0xa9, 0xaa, 0xab], rfl⟩⟩ }

/-- The peer 192.0.2.1:5684. -/
def shortPeer : Peer := .ipv4 ⟨[192, 0, 2, 1], rfl⟩ 5684

/-- The peer `[c000:201:1634:fefd:102:304:506:708]:5684`. -/
def longPeer : Peer :=
  .ipv6 ⟨[0xc0, 0x00, 0x02, 0x01, 0x16, 0x34, 0xfe, 0xfd, 1, 2, 3, 4, 5, 6, 7, 8], rfl⟩ 5684 0 0

/-- Both hellos can be sent, they have one input at the two peers, and so the cookie issued to the
one passes for the other whatever the code. -/
theorem macInput_shortPeer_eq_longPeer :
    issuedHello.Writable ∧ spoofedHello.Writable
      ∧ macInput shortPeer issuedHello = macInput longPeer spoofedHello
      ∧ ∀ g : Generator, ∃ c, g.compute shortPeer issuedHello = .ok c
          ∧ (g.verify longPeer (spoofedHello.withCookie c)).value = true := by
  have hsame : macInput shortPeer issuedHello = macInput longPeer spoofedHello := by decide
  refine ⟨⟨by decide, by decide, by decide⟩, ⟨by decide, by decide, by decide⟩, hsame, ?_⟩
  exact (passes_iff_macInput_eq _ _ _ _).mpr hsame

end Generator

end DatagramHello
