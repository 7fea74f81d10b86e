/-
Trying bytes in every way they can be read.

A probe decodes the same bytes as an extensions block, as a handshake message,
and as the body of either kind of hello with a header of the right length put
in front, in that order, which is also the order of the log. Whatever decodes
is written again and compared with what was decoded. The comparison may fail
for a hello that ends in an empty extensions block, since that is not written.

This is what `fuzz_target` does with its input, except that it stops at the
first thing that is wrong, and a probe reports everything.
-/
import DatagramHello.Handshake.Basic

set_option autoImplicit false

namespace DatagramHello

/-- A value that was decoded, and whether writing it gives the same bytes. -/
structure Probe.Reading (α : Type) where
  value : α
  same : Bool

/-- The results of a probe. -/
structure Probe where
  extensions : Except Error (Probe.Reading Extensions)
  raw : Except Error (Probe.Reading Body)
  asClientHello : Except Error (Probe.Reading Body)
  asHelloVerify : Except Error (Probe.Reading Body)

namespace Probe

/-- Whether a writer succeeds on an empty buffer and leaves exactly these bytes. -/
def writes (w : Writer) (bytes : Bytes) : Bool :=
  match w Buffer.empty with
  | ⟨out, .ok ()⟩ => out.toBytes == bytes
  | ⟨_, .error _⟩ => false

/-- Reads the bytes as a block and writes it again. -/
def block (bytes : Bytes) : Logged (Except Error (Reading Extensions)) :=
  (Extensions.decode bytes).map (·.map fun xs => ⟨xs, writes xs.write bytes⟩)

/-- Reads the bytes as a message under the usual limit and writes it again. -/
def handshake (bytes : Bytes) : Logged (Except Error (Reading Body)) :=
  (Handshake.decode default bytes).map
    (·.map fun h => ⟨h.body, writes h.write bytes⟩)

/-- Puts the header of a message of the given kind in front of its body. -/
def wrap (type : MessageType) (body : Bytes) : Bytes :=
  (Header.unfragmented type (UInt32.ofNat body.length) 0).encode ++ body

/-- Reads the bytes in all four ways. -/
def run (bytes : Bytes) : Logged Probe :=
  let extensions := block bytes
  let raw := handshake bytes
  let asClientHello := handshake (wrap (.registered .clientHello) bytes)
  let asHelloVerify := handshake (wrap (.registered .helloVerifyRequest) bytes)
  ⟨extensions.log ++ raw.log ++ asClientHello.log ++ asHelloVerify.log,
    ⟨extensions.value, raw.value, asClientHello.value, asHelloVerify.value⟩⟩

end Probe

end DatagramHello
