/-
Cookies without memory.

A server that answers a hello keeps nothing about the client. The cookie it
sends is the front of a MAC over the peer's address and the bound part of the
hello; when the client repeats the hello with the cookie, the server computes
the MAC again and compares. Only a client that receives at its address can
pass.

The MAC is a field of the generator, so what is said here holds for any
function of secret and message.
-/
import DatagramHello.Config
import DatagramHello.Hash.Hmac
import DatagramHello.Hello.ClientHello
import DatagramHello.Hello.HelloVerify

set_option autoImplicit false

namespace DatagramHello

/-- Makes and checks cookies: `CookieGenerator`. -/
structure Generator where
  mac : Mac := Mac.hmacSha256
  secret : Octets 32
  config : Config

namespace Generator

/-- What the MAC is computed over: the octets of the address, the UDP port, the bound part. The
scope and flow label of an IPv6 peer stay out of it. These are the `update` calls of
`CookieGenerator::mac`. -/
def macInput (peer : Peer) (hello : ClientHello) : Bytes :=
  peer.octets ++ Bytes.bigEndian 2 peer.udpPort.toNat ++ hello.boundPart

/-- The MAC for a peer and a hello: `CookieGenerator::mac`. A secret of 32 octets is never refused,
so unlike that function it cannot fail. -/
def tag (g : Generator) (peer : Peer) (hello : ClientHello) : Octets 32 :=
  g.mac g.secret (macInput peer hello)

/-- The cookie for a peer and a hello: `CookieGenerator::compute`. -/
def compute (g : Generator) (peer : Peer) (hello : ClientHello) : Except Error Cookie :=
  Token.ofBytes .cookie ((g.tag peer hello).bytes.take g.config.cookieLength)

/-- Whether `front` is a front part of `code`: `verify_truncated_left`. A part of no octets does not
count. -/
def matchesFront (code : Octets 32) (front : Bytes) : Bool :=
  0 < front.length && front.length ≤ 32 && code.bytes.take front.length == front

/-- Checks the cookie in a hello: `CookieGenerator::verify`. A hello without a cookie is refused
quietly, since every first hello is one. -/
def verify (g : Generator) (peer : Peer) (hello : ClientHello) : Logged Bool :=
  if hello.cookie.length ≠ g.config.cookieLength then
    if hello.cookie.isEmpty then ⟨[], false⟩
    else ⟨[.cookieLength peer hello.cookie.length g.config.cookieLength], false⟩
  else if matchesFront (g.tag peer hello) hello.cookie.bytes then ⟨[], true⟩
  else ⟨[.invalidCookie peer], false⟩

/-- The answer to a hello without a valid cookie: `CookieGenerator::hello_verify_request`. -/
def challenge (g : Generator) (peer : Peer) (hello : ClientHello) :
    Logged (Except Error HelloVerify) :=
  match g.compute peer hello with
  | .error e => ⟨[], .error e⟩
  | .ok cookie => ⟨[.challengeSent peer], .ok ⟨g.config.serverVersion, cookie⟩⟩

end Generator

end DatagramHello
