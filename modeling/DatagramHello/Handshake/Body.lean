/-
The handshake bodies that are understood: the client hello and the answer to
it. Every other kind of message is refused by name.
-/
import DatagramHello.Handshake.Message
import DatagramHello.Hello.ClientHello
import DatagramHello.Hello.HelloVerify

set_option autoImplicit false

namespace DatagramHello

/-- The body of a handshake message: `Body`. -/
inductive Body where
  | clientHello (h : ClientHello)
  | helloVerify (r : HelloVerify)
deriving DecidableEq

namespace Body

/-- The kind of message that the body is sent as: `message_type`. -/
def type : Body → MessageType
  | .clientHello _ => .registered .clientHello
  | .helloVerify _ => .registered .helloVerifyRequest

/-- The length that the body announces: `body_length`. -/
def length : Body → Nat
  | .clientHello h => h.bodyLength
  | .helloVerify r => r.bodyLength

/-- Writes the body: `serialize_body`. -/
def write : Body → Writer
  | .clientHello h => h.write
  | .helloVerify r => r.write

/-- The body as a message to be sent: `Body` as a `HandshakeMessage`. -/
def message (b : Body) : Message where
  type := b.type
  bodyLength := b.length
  writeBody := b.write

/-- Reads the body of a message of the given kind: `Body::parse`. Bodies of other kinds are not read
at all. -/
def read (type : MessageType) : Reader Body :=
  match type with
  | .registered .clientHello => Body.clientHello <$> ClientHello.read
  | .registered .helloVerifyRequest => Body.helloVerify <$> HelloVerify.read
  | other => Reader.refuse (.noDecoder other) (.unsupportedMessage other.id)

end Body

end DatagramHello
