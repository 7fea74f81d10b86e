/-
One endpoint in the middle of an exchange.

An endpoint holds what it is about to send or has just received: a hello, an
answer to a hello, a list of extensions, a buffer of bytes, and the
configuration and generator it works with. A generator keeps the configuration
it was made with when the endpoint gets another one.
-/
import DatagramHello.Cookie.Generator
import DatagramHello.Handshake.Basic

set_option autoImplicit false

namespace DatagramHello

/-- What an endpoint has at hand. -/
structure Exchange where
  config : Config
  generator : Generator
  hello : ClientHello
  answer : HelloVerify
  extensions : Extensions
  out : Buffer

namespace Exchange

/-- An endpoint that has done nothing yet: a hello without entries, a secret of zeros. -/
def start : Exchange where
  config := default
  generator := { secret := Octets.zero 32, config := default }
  hello := {
    version := Version.dtls12
    random := ⟨0, Octets.zero 28⟩
    sessionId := Token.empty
    cookie := Token.empty
    suites := AtMost.empty
    methods := AtMost.empty }
  answer := ⟨Version.dtls12, Token.empty⟩
  extensions := Extensions.empty
  out := Buffer.empty

end Exchange

end DatagramHello
