/-
The answer to a hello without a valid cookie: the server's version and the
cookie that the client is to repeat.
-/
import DatagramHello.Hello.Token
import DatagramHello.Hello.Version
import DatagramHello.Wire.Writer

set_option autoImplicit false

namespace DatagramHello

/-- Asks a client to repeat its hello with the given cookie: `HelloVerifyRequest`. -/
structure HelloVerify where
  version : Version
  cookie : Cookie
deriving DecidableEq

namespace HelloVerify

/-- The version in front of the cookie: `HelloVerifyRequest::serialize`. -/
def encode (r : HelloVerify) : Bytes := r.version.encode ++ r.cookie.encode

/-- Reads a version, then a cookie: `HelloVerifyRequest::parse`. -/
def read : Reader HelloVerify := do
  let version ← Version.read
  let cookie ← Token.read .cookie
  pure ⟨version, cookie⟩

/-- Appends the octets and cannot fail: `serialize_body` of a `HelloVerifyRequest`. -/
def write (r : HelloVerify) : Writer := Writer.put r.encode

/-- The length that the answer announces: `body_length` of a `HelloVerifyRequest`. -/
def bodyLength (r : HelloVerify) : Nat := 3 + r.cookie.length

/-- The answer as text: the `Display` of `HelloVerifyRequest`. -/
def display (r : HelloVerify) : String :=
  "HelloVerifyRequest \x7b server_version: " ++ r.version.display ++ ", cookie: "
    ++ r.cookie.display ++ " \x7d"

/-- The announced length is the length of the octets. -/
@[simp] theorem length_encode (r : HelloVerify) : r.encode.length = r.bodyLength := by
  simp [encode, bodyLength, Version.encode]
  omega

end HelloVerify

end DatagramHello
