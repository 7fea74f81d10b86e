/-
Complete handshake messages.

A message is read from its header on: a fragment is refused, then a body
longer than the reader's limit, before any of the body is looked at. The body
must fill the announced length exactly. `decode` asks moreover that nothing
follows the message.
-/
import DatagramHello.Config
import DatagramHello.Handshake.Body

set_option autoImplicit false

namespace DatagramHello

/-- A handshake message in one piece: `Handshake`. -/
structure Handshake where
  seq : UInt16
  body : Body
deriving DecidableEq

namespace Handshake

/-- The header that is written for the message: `Handshake::header`. -/
def header (h : Handshake) : Header := h.body.message.header h.seq

/-- Writes the message: `Handshake::serialize`. -/
def write (h : Handshake) : Writer := h.body.message.write h.seq

/-- Reads a message whose body is no longer than `limit`: `Handshake::parse`. -/
def read (limit : Nat) : Reader Handshake := do
  let header ← Header.read
  let length := header.length.toNat
  if header.isFragment then
    Reader.refuse
      (.fragment header.type header.offset.toNat header.fragmentLength.toNat length)
      (.framing .fragmented)
  else if limit < length then
    Reader.fail (.tooBig length limit)
  else do
    let field ← Reader.take length
    let (body, excess) ← Reader.inside field.bytes (Body.read header.type)
    if excess.isEmpty then
      pure ⟨header.seq, body⟩
    else
      Reader.refuse (.bytesAfterBody header.type excess.length) (.framing .bytesAfterBody)

/-- Reads a message that is the whole input: `Handshake::decode`. -/
def decode (config : Config) (input : Bytes) : Logged (Except Error Handshake) :=
  (read config.maxMessageLength).whole (fun _ => ([], .framing .bytesAfterHandshake)) input

end Handshake

end DatagramHello
