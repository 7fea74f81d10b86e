/-
Message authentication codes.

A code is any function of a secret and a message with a result of 32 octets;
nothing about cookies depends on which one. The one in use is HMAC over
SHA-256. Its secret has 32 octets, which is less than a block, so the secret
is only ever filled up with zeros and never hashed first.
-/
import DatagramHello.Hash.Sha256

set_option autoImplicit false

namespace DatagramHello

/-- A message authentication code: what is asked of the `Mac` that a cookie is cut from. -/
abbrev Mac := Octets 32 → Bytes → Octets 32

namespace Mac

/-- The secret filled up to a block and combined with `pad` at every place. -/
def keyBlock (secret : Octets 32) (pad : UInt8) : Bytes :=
  (secret.bytes ++ List.replicate 32 0).map (· ^^^ pad)

/-- HMAC over SHA-256: `HmacSha256`. -/
def hmacSha256 : Mac := fun secret message =>
  let inner := Sha256.digest (keyBlock secret 0x36 ++ message)
  Sha256.digest (keyBlock secret 0x5c ++ inner.bytes)

end Mac

end DatagramHello
