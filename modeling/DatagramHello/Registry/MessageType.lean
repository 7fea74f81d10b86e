/-
The kinds of handshake message that have a name. Only two of them have a body
that this library reads.
-/
import DatagramHello.Wire.Tag

set_option autoImplicit false

namespace DatagramHello

/-- The kinds of message with a name: `MessageType` without its `Unknown`. -/
inductive MessageType.Name where
  | helloRequest
  | clientHello
  | serverHello
  | helloVerifyRequest
  | certificate
  | serverKeyExchange
  | certificateRequest
  | serverHelloDone
  | certificateVerify
  | clientKeyExchange
  | finished
deriving DecidableEq

/-- One octet a kind, numbered as `MessageType::as_u8` does. -/
instance MessageType.registry : Registry MessageType.Name where
  width := 1
  number
    | .helloRequest => 0
    | .clientHello => 1
    | .serverHello => 2
    | .helloVerifyRequest => 3
    | .certificate => 11
    | .serverKeyExchange => 12
    | .certificateRequest => 13
    | .serverHelloDone => 14
    | .certificateVerify => 15
    | .clientKeyExchange => 16
    | .finished => 20
  number_lt k := by cases k <;> decide
  number_injective k l := by cases k <;> cases l <;> decide
  all := [.helloRequest, .clientHello, .serverHello, .helloVerifyRequest, .certificate,
    .serverKeyExchange, .certificateRequest, .serverHelloDone, .certificateVerify,
    .clientKeyExchange, .finished]
  mem_all k := by cases k <;> decide
  label
    | .helloRequest => "HelloRequest"
    | .clientHello => "ClientHello"
    | .serverHello => "ServerHello"
    | .helloVerifyRequest => "HelloVerifyRequest"
    | .certificate => "Certificate"
    | .serverKeyExchange => "ServerKeyExchange"
    | .certificateRequest => "CertificateRequest"
    | .serverHelloDone => "ServerHelloDone"
    | .certificateVerify => "CertificateVerify"
    | .clientKeyExchange => "ClientKeyExchange"
    | .finished => "Finished"

/-- A kind of handshake message, an 8-bit number. -/
abbrev MessageType := Tag MessageType.Name

/-- The largest number, which no kind has: the `Default` of `MessageType`. -/
instance : Inhabited MessageType := ⟨.keep 255⟩

end DatagramHello
