/-
Anything that can be sent as a handshake message.

A message knows its kind, how long its body will be, and how to write the
body. The header is made from these when the message is written, so a length
cannot be set by hand and go stale. A body that cannot be written takes its
header with it: the buffer is cut back to what it was.

Whether a body is as long as it was announced is asked by a debug assertion
only. What is modelled here is a build without debug assertions, so a message
may announce one length and write another; nothing is refused for that.
-/
import DatagramHello.Handshake.Header
import DatagramHello.Wire.Writer

set_option autoImplicit false

namespace DatagramHello

/-- Something that writes the body of a handshake message: an implementation of `HandshakeMessage`.
-/
structure Message where
  type : MessageType
  /-- The length that the message announces for its body: `body_length`. -/
  bodyLength : Nat
  /-- Writes the body, and may fail after it has written something: `serialize_body`. -/
  writeBody : Writer

namespace Message

/-- The largest body length that the header's 24 bits hold: `MAX_U24`. -/
def maxBodyLength : Nat := 16777215

/-- The header that goes in front of the message. -/
def header (m : Message) (seq : UInt16) : Header :=
  Header.unfragmented m.type (UInt32.ofNat m.bodyLength) seq

/-- Writes the header and the body behind it, or nothing: `serialize_handshake`, without its debug
assertion. -/
def write (m : Message) (seq : UInt16) : Writer :=
  if maxBodyLength < m.bodyLength then
    Writer.fail (.doesNotFit .handshakeBody m.bodyLength maxBodyLength)
  else
    ((Writer.put (m.header seq).encode).andThen m.writeBody).restoring

end Message

end DatagramHello
