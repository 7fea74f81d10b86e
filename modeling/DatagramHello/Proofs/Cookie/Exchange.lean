/-
The exchange of a cookie over the wire.

Three messages go between a client and a server that remembers nothing: the
hello, the challenge, and the hello again with the challenge's cookie and, if
the client likes, other extensions. Each is written by one side and decoded by
the other, and the server sees hellos only as they were decoded, with every tag
by its name where it has one.

What carries the exchange through is that the input of the code survives all of
this. The bound part is made of octets, so decoding does not change it, and the
cookie and the extensions are not in it, so the client's edits do not either.
The server therefore computes at the end the very tag that it cut the cookie
from.
-/
import DatagramHello.Proofs.Cookie.Generator
import DatagramHello.Proofs.Handshake.Codec

set_option autoImplicit false

namespace DatagramHello

/-- `sent` can be written behind anything, and a receiver decodes what was written to `received`. -/
def Handshake.Delivers (config : Config) (sent received : Handshake) : Prop :=
  ∃ w, (∀ out, sent.write out = ⟨out.append w, .ok ()⟩)
    ∧ (decode config w).value = .ok received

/-- A message that can be written arrives, within the limit, as its canonical form. -/
theorem Handshake.delivers_canonical {config : Config} {h : Handshake} (hw : h.body.Writable)
    (hlimit : h.body.length ≤ config.maxMessageLength) : h.Delivers config h.canonical :=
  ⟨h.encode, appends_write hw, decode_encode hw hlimit⟩

/-- The hello again, with a cookie and other extensions. -/
def ClientHello.repeated (h : ClientHello) (cookie : Cookie) (extensions : Extensions) :
    ClientHello :=
  (h.withCookie cookie).withExtensions extensions

/-- Neither the cookie nor the extensions are in the bound part, so repeating a hello keeps it. -/
@[simp] theorem ClientHello.boundPart_repeated (h : ClientHello) (cookie : Cookie)
    (extensions : Extensions) : (h.repeated cookie extensions).boundPart = h.boundPart := rfl

namespace Generator

/-- The server computes the same cookie for a hello and for its repetition, both as it decoded them,
from a peer with the same address octets and port. -/
theorem cookie_canonical_repeated {g : Generator} {peer peer' : Peer} {h : ClientHello}
    {cookie : Cookie} {extensions : Extensions} (hoctets : peer'.octets = peer.octets)
    (hport : peer'.udpPort = peer.udpPort) :
    g.cookie peer' (h.repeated cookie extensions).canonical = g.cookie peer h.canonical := by
  apply cookie_congr
  apply macInput_congr hoctets hport
  rw [ClientHello.boundPart_canonical, ClientHello.boundPart_repeated,
    ClientHello.boundPart_canonical]

/-- **The exchange completes.** A hello that can be written and that the server is ready to read is
decoded, and challenged with a cookie of the configured length. A client that is ready to read the
challenge decodes it as it was sent. When it repeats its hello with that cookie and with extensions
of its choice, and the server is ready to read this too, what the server decodes passes, from any
peer with the octets and the port of the first. -/
theorem exchange_completes (g : Generator) (client : Config) (peer : Peer) (h : ClientHello)
    (seq₁ seq₂ seq₃ : UInt16) (hwritten : ∃ before, (h.write before).result = .ok ())
    (hlimit : h.bodyLength ≤ g.config.maxMessageLength) :
    ∃ first answer,
      Handshake.Delivers g.config ⟨seq₁, .clientHello h⟩ ⟨seq₁, .clientHello first⟩
      ∧ (g.challenge peer first).value = .ok answer
      ∧ answer.version = g.config.serverVersion
      ∧ answer.cookie.length = g.config.cookieLength
      ∧ (answer.bodyLength ≤ client.maxMessageLength →
          Handshake.Delivers client ⟨seq₂, .helloVerify answer⟩ ⟨seq₂, .helloVerify answer⟩
          ∧ ∀ extensions,
              (∃ before, ((h.repeated answer.cookie extensions).write before).result = .ok ()) →
              (h.repeated answer.cookie extensions).bodyLength ≤ g.config.maxMessageLength →
              ∃ second,
                Handshake.Delivers g.config
                    ⟨seq₃, .clientHello (h.repeated answer.cookie extensions)⟩
                    ⟨seq₃, .clientHello second⟩
                ∧ ∀ peer' : Peer, peer'.octets = peer.octets → peer'.udpPort = peer.udpPort →
                    (g.verify peer' second).value = true) := by
  obtain ⟨before, hok⟩ := hwritten
  have hw : h.Writable := ClientHello.writable_of_result hok
  -- the server computes on the canonical form of what was sent
  refine ⟨h.canonical, ⟨g.config.serverVersion, g.cookie peer h.canonical⟩, ?_, ?_, rfl,
    length_cookie, ?_⟩
  · exact Handshake.delivers_canonical (h := ⟨seq₁, .clientHello h⟩) hw hlimit
  · exact value_challenge g peer h.canonical
  intro hanswer
  refine ⟨?_, ?_⟩
  · -- a challenge has no tags, so it is its own canonical form
    exact Handshake.delivers_canonical (h := ⟨seq₂, .helloVerify _⟩) trivial hanswer
  · intro extensions hagain hfits
    obtain ⟨before', hok'⟩ := hagain
    have hw' := ClientHello.writable_of_result hok'
    refine ⟨(h.repeated (g.cookie peer h.canonical) extensions).canonical, ?_, ?_⟩
    · exact Handshake.delivers_canonical (h := ⟨seq₃, .clientHello _⟩) hw' hfits
    · intro peer' hoctets hport
      -- the echoed cookie is the one for the first hello, and so the one for this
      rw [value_verify_iff, cookie_canonical_repeated hoctets hport]
      rfl

/-- A server with cookies of 16 octets. -/
def shortCookies : Generator where
  secret := Octets.zero 32
  config := { cookieLength := 16 }

/-- A hello that offers a suite by its number and has some cookie already. -/
def offeredHello : ClientHello :=
  { ClientHello.plain with
    sessionId := ⟨[1, 2, 3], by decide⟩
    cookie := ⟨[9], by decide⟩
    suites := { items := [.keep 0x1301, .keep 0xC0A8] } }

/-- The extensions that the hello is repeated with. -/
def addedExtensions : Extensions := { entries := [⟨.keep 11, [1, 0], by decide⟩] }

/-- A link-local peer, as it shows with a scope and a flow label. -/
def linkPeer (scope flow : UInt32) : Peer :=
  .ipv6 ⟨[0xfe, 0x80, 0, 0, 0, 0, 0, 0, 0, 0, 0, 0, 0, 0, 0, 1], rfl⟩ 5684 scope flow

/-- The exchange with that server completes, also from a peer whose scope and flow label changed. -/
theorem exchange_completes_offeredHello :
    (∃ before, (offeredHello.write before).result = .ok ())
      ∧ offeredHello.bodyLength ≤ shortCookies.config.maxMessageLength
      ∧ ∃ first answer second,
          Handshake.Delivers shortCookies.config ⟨0, .clientHello offeredHello⟩
              ⟨0, .clientHello first⟩
          ∧ (shortCookies.challenge (linkPeer 2 7) first).value = .ok answer
          ∧ Handshake.Delivers default ⟨0, .helloVerify answer⟩ ⟨0, .helloVerify answer⟩
          ∧ Handshake.Delivers shortCookies.config
              ⟨1, .clientHello (offeredHello.repeated answer.cookie addedExtensions)⟩
              ⟨1, .clientHello second⟩
          ∧ (shortCookies.verify (linkPeer 0 0) second).value = true := by
  have hwritten : ∃ before, (offeredHello.write before).result = .ok () := ⟨Buffer.empty, rfl⟩
  have hlimit : offeredHello.bodyLength ≤ shortCookies.config.maxMessageLength := by decide
  obtain ⟨first, answer, hfirst, hchallenge, -, hlength, hnext⟩ :=
    exchange_completes shortCookies default (linkPeer 2 7) offeredHello 0 0 1 hwritten hlimit
  have hcookie : answer.cookie.length = 16 := hlength
  have hanswer : answer.bodyLength ≤ (default : Config).maxMessageLength := by
    show 3 + answer.cookie.length ≤ 16384
    omega
  obtain ⟨hreceived, hrepeat⟩ := hnext hanswer
  have hagain : ∃ before, ((offeredHello.repeated answer.cookie addedExtensions).write
      before).result = .ok () := ⟨Buffer.empty, rfl⟩
  have hfits : (offeredHello.repeated answer.cookie addedExtensions).bodyLength
      ≤ shortCookies.config.maxMessageLength := by
    show 2 + 32 + 1 + 3 + 1 + answer.cookie.length + 2 + 4 + 1 + 1 + 8 ≤ 16384
    omega
  obtain ⟨second, hsecond, hpasses⟩ := hrepeat addedExtensions hagain hfits
  exact ⟨hwritten, hlimit, first, answer, second, hfirst, hchallenge, hreceived, hsecond,
    hpasses (linkPeer 0 0) rfl rfl⟩

end Generator

end DatagramHello
