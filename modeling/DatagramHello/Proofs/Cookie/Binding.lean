/-
What a cookie is bound to.

Between peers of one family the octets that a cookie is computed over can be
taken apart again. The addresses are equally long, the port, the version and
the random field have fixed lengths, and the session id and the two lists stand
behind their own. So equal octets are equal fields, one by one, and no change to
one field can be made up for by a change to another.

Two hellos are the same to a cookie if the fields in the bound part are the
same, where tags count as their numbers (`SameBound`). Neither the hello's own
cookie nor its extensions are among them, and of an IPv6 peer neither the scope
nor the flow label is.
-/
import DatagramHello.Proofs.Cookie.Exchange

set_option autoImplicit false

namespace DatagramHello

/-- Both addresses are IPv4, or both are IPv6. -/
def Peer.SameFamily : Peer → Peer → Prop
  | .ipv4 .., .ipv4 .. => True
  | .ipv6 .., .ipv6 .. => True
  | _, _ => False

/-- Peers of one family have addresses of one length. -/
theorem Peer.SameFamily.length_octets {p q : Peer} (h : p.SameFamily q) :
    p.octets.length = q.octets.length := by
  rcases p with ⟨a, port⟩ | ⟨a, port, scope, flow⟩
  · rcases q with ⟨b, port'⟩ | ⟨b, port', scope', flow'⟩
    · exact a.length_bytes.trans b.length_bytes.symm
    · contradiction
  · rcases q with ⟨b, port'⟩ | ⟨b, port', scope', flow'⟩
    · contradiction
    · exact a.length_bytes.trans b.length_bytes.symm

namespace ClientHello

variable {h k : ClientHello}

/-- The fields that a cookie is bound to are the same, the tags by their numbers. -/
structure SameBound (h k : ClientHello) : Prop where
  version : h.version = k.version
  random : h.random = k.random
  sessionId : h.sessionId.bytes = k.sessionId.bytes
  suites : h.suites.items.map Tag.id = k.suites.items.map Tag.id
  methods : h.methods.items.map Tag.id = k.methods.items.map Tag.id

/-- The octets of cipher suites are their numbers in their order. -/
theorem encodeSuites_eq_iff {xs ys : AtMost 64 CipherSuite} :
    encodeSuites xs = encodeSuites ys ↔ xs.items.map Tag.id = ys.items.map Tag.id :=
  Tag.counted_encodeList_eq_iff (by decide) 2 2

/-- The octets of compression methods are their numbers in their order. -/
theorem encodeMethods_eq_iff {xs ys : AtMost 4 CompressionMethod} :
    encodeMethods xs = encodeMethods ys ↔ xs.items.map Tag.id = ys.items.map Tag.id := by
  unfold encodeMethods
  -- a method takes one octet, so here the number of methods is the length
  rw [← Nat.one_mul xs.items.length, ← Nat.one_mul ys.items.length]
  exact Tag.counted_encodeList_eq_iff (by decide) 1 1

/-- The bound part as a row of fields, cut from the left. -/
theorem boundPart_eq_row (h : ClientHello) :
    h.boundPart = h.version.encode ++ (h.random.encode ++ (h.sessionId.encode
      ++ (encodeSuites h.suites ++ encodeMethods h.methods))) := by
  rw [boundPart, encodeLists_eq, List.append_assoc, List.append_assoc]

/-- Two bound parts are the same octets exactly if the fields in them are the same. -/
theorem boundPart_eq_iff : h.boundPart = k.boundPart ↔ h.SameBound k := by
  have hversion : h.version.encode = k.version.encode ↔ h.version = k.version :=
    encode_inj_of_accepts fun _ _ => Version.accepts_read.mpr rfl
  have hrandom : h.random.encode = k.random.encode ↔ h.random = k.random :=
    encode_inj_of_accepts fun _ _ => Random.accepts_read.mpr rfl
  have hsessionId : h.sessionId.encode = k.sessionId.encode ↔ h.sessionId = k.sessionId :=
    encode_inj_of_accepts fun _ _ => Token.accepts_read.mpr rfl
  -- every field says where it ends, so the row is cut at the same places on both sides
  rw [boundPart_eq_row, boundPart_eq_row, Version.delimited_encode.append_inj_iff,
    Random.delimited_encode.append_inj_iff, Token.delimited_encode.append_inj_iff,
    delimited_encodeSuites.append_inj_iff, hversion, hrandom, hsessionId, encodeSuites_eq_iff,
    encodeMethods_eq_iff, Token.mk.injEq]
  constructor
  · rintro ⟨hversion, hrandom, hsessionId, hsuites, hmethods⟩
    exact ⟨hversion, hrandom, hsessionId, hsuites, hmethods⟩
  · rintro ⟨hversion, hrandom, hsessionId, hsuites, hmethods⟩
    exact ⟨hversion, hrandom, hsessionId, hsuites, hmethods⟩

end ClientHello

namespace Generator

variable {p q : Peer} {h k : ClientHello}

/-- Behind addresses of one length, ports and bound parts stand at the same places. -/
theorem macInput_eq_iff (hlength : p.octets.length = q.octets.length) :
    macInput p h = macInput q k
      ↔ p.octets = q.octets ∧ p.udpPort = q.udpPort ∧ h.SameBound k := by
  rw [← ClientHello.boundPart_eq_iff]
  constructor
  · intro heq
    rw [macInput, macInput, List.append_assoc, List.append_assoc] at heq
    obtain ⟨hoctets, heq⟩ := List.append_inj heq hlength
    obtain ⟨hport, hbound⟩ := List.append_inj heq (by simp)
    refine ⟨hoctets, ?_, hbound⟩
    -- a port has 16 bits, and two octets keep them
    exact UInt16.toNat_inj.mp ((Bytes.bigEndian_inj p.udpPort.toNat_lt q.udpPort.toNat_lt).mp hport)
  · rintro ⟨hoctets, hport, hbound⟩
    exact macInput_congr hoctets hport hbound

/-- Two pairs get the same cookie from every generator if their inputs are equal, and only then:
there is a code that tells unequal inputs apart. -/
theorem forall_compute_eq_iff :
    (∀ g : Generator, g.compute p h = g.compute q k) ↔ macInput p h = macInput q k := by
  rw [← forall_cookie_eq_iff]
  simp only [compute_eq, Except.ok.injEq]

/-- **What a cookie is bound to.** For peers of one family, what the code is computed over is the
same exactly if the addresses, the ports, the versions, the random fields, the session ids, and the
suites and methods by number are; and only then do all generators give one cookie. A hello's own
cookie and its extensions, and the scope and flow label of an IPv6 peer, have no part in it. -/
theorem macInput_eq_iff_sameBound (p q : Peer) (hfamily : p.SameFamily q) (h k : ClientHello) :
    (macInput p h = macInput q k
        ↔ p.octets = q.octets ∧ p.udpPort = q.udpPort ∧ h.SameBound k)
      ∧ ((∀ g : Generator, g.compute p h = g.compute q k)
          ↔ p.octets = q.octets ∧ p.udpPort = q.udpPort ∧ h.SameBound k)
      ∧ (∀ (g : Generator) (cookie : Cookie) (extensions : Extensions),
          g.compute p ((h.withCookie cookie).withExtensions extensions) = g.compute p h)
      ∧ ∀ (g : Generator) (address : Octets 16) (udpPort : UInt16)
          (scope scope' flow flow' : UInt32),
          g.compute (.ipv6 address udpPort scope flow) h
            = g.compute (.ipv6 address udpPort scope' flow') h := by
  refine ⟨macInput_eq_iff hfamily.length_octets, ?_, ?_, ?_⟩
  · rw [forall_compute_eq_iff]
    exact macInput_eq_iff hfamily.length_octets
  · intro g cookie extensions
    refine forall_compute_eq_iff.mpr ?_ g
    exact macInput_congr rfl rfl (h.boundPart_repeated cookie extensions)
  · intro g address udpPort scope scope' flow flow'
    refine forall_compute_eq_iff.mpr ?_ g
    exact macInput_congr rfl rfl rfl

/-- The hello with its two suites in the other order. -/
def reorderedHello : ClientHello :=
  { offeredHello with suites := { items := offeredHello.suites.items.reverse } }

/-- The hello whose second suite goes by its name. -/
def namedHello : ClientHello :=
  { offeredHello with suites := { items := [.keep 0x1301, .registered .pskAes128Ccm8] } }

/-- A name counts as its number and a scope does not count, but the order of the suites does. -/
theorem macInput_eq_iff_sameBound_linkPeer :
    (linkPeer 2 7).SameFamily (linkPeer 0 0)
      ∧ macInput (linkPeer 2 7) offeredHello = macInput (linkPeer 0 0) namedHello
      ∧ macInput (linkPeer 2 7) offeredHello ≠ macInput (linkPeer 0 0) reorderedHello := by
  have hfamily : (linkPeer 2 7).SameFamily (linkPeer 0 0) := trivial
  obtain ⟨hnamed, -⟩ :=
    macInput_eq_iff_sameBound (linkPeer 2 7) (linkPeer 0 0) hfamily offeredHello namedHello
  obtain ⟨hreordered, -⟩ :=
    macInput_eq_iff_sameBound (linkPeer 2 7) (linkPeer 0 0) hfamily offeredHello reorderedHello
  refine ⟨hfamily, hnamed.mpr ⟨rfl, rfl, rfl, rfl, rfl, rfl, rfl⟩, ?_⟩
  intro heq
  have hsuites := (hreordered.mp heq).2.2.suites
  exact absurd hsuites (by decide)

end Generator

end DatagramHello
