/-
The client hello.

Its body is version, random field, session id, cookie, cipher suites,
compression methods and, last and optional, an extensions block. A reader
blames the first field from the left that cannot be read. It takes the block
as present when any byte is left after the compression methods, so an absent
block and an empty one are different octets; the writer never writes an empty
one.

A cookie is bound to `boundPart`: all fields but the cookie itself and the
extensions, as they are on the wire. A client that repeats its hello with the
cookie it was given leaves that part alone.
-/
import DatagramHello.Extension.Block
import DatagramHello.Hello.Random
import DatagramHello.Hello.Token
import DatagramHello.Hello.Version
import DatagramHello.Registry.CipherSuite
import DatagramHello.Registry.CompressionMethod
import DatagramHello.Wire.AtMost

set_option autoImplicit false

namespace DatagramHello

/-- The first message of a client: `ClientHello`. -/
structure ClientHello where
  version : Version
  random : Random
  sessionId : SessionId
  cookie : Cookie
  suites : AtMost 64 CipherSuite
  methods : AtMost 4 CompressionMethod
  extensions : Extensions := {}
deriving DecidableEq

namespace ClientHello

/-- The same hello with another cookie: `with_cookie`. -/
def withCookie (h : ClientHello) (cookie : Cookie) : ClientHello := { h with cookie := cookie }

/-- The same hello with other extensions: `with_extensions`. -/
def withExtensions (h : ClientHello) (extensions : Extensions) : ClientHello :=
  { h with extensions := extensions }

/-! ## Reading

The fields are read from the left. Each of the two lists is refused for its length before its
entries are read, and the block is optional. -/

/-- Reads the cipher suites behind their length in octets, which is looked at before the suites are:
`ClientHello::parse`. -/
def readSuites : Reader (AtMost 64 CipherSuite) := do
  let octets ← Reader.number 2
  if octets.val = 0 ∨ octets.val % 2 ≠ 0 then
    Reader.fail (.framing .cipherSuitesLength)
  else
    Tag.readList 64 .cipherSuites octets.val

/-- Reads the compression methods behind their number: `ClientHello::parse`. -/
def readMethods : Reader (AtMost 4 CompressionMethod) := do
  let octets ← Reader.number 1
  if octets.val = 0 then
    Reader.fail (.framing .noCompressionMethods)
  else
    Tag.readList 4 .compressionMethods octets.val

/-- Reads the extensions block if anything is left to read: `ClientHello::parse`. -/
def readExtensions : Reader Extensions := do
  let finished ← Reader.atEnd
  if finished then pure {} else Extensions.read

/-- Reads the fields from the left: `ClientHello::parse`. -/
def read : Reader ClientHello := do
  let version ← Version.read
  let random ← Random.read
  let sessionId ← Token.read .sessionId
  let cookie ← Token.read .cookie
  let suites ← readSuites
  let methods ← readMethods
  let extensions ← readExtensions
  pure { version, random, sessionId, cookie, suites, methods, extensions }

/-! ## Writing

The fields that a cookie is bound to are written in two places, in the body and by themselves. What
both have in common is written by `encodeLists`. -/

/-- The octets of the cipher suites and compression methods, each behind its length:
`serialize_suites_and_methods`. -/
def encodeLists (h : ClientHello) : Bytes :=
  Bytes.bigEndian 2 (2 * h.suites.items.length) ++ Tag.encodeList h.suites.items
    ++ (Bytes.bigEndian 1 h.methods.items.length ++ Tag.encodeList h.methods.items)

/-- The octets a cookie is bound to: `serialize_cookie_input`. -/
def boundPart (h : ClientHello) : Bytes :=
  h.version.encode ++ h.random.encode ++ h.sessionId.encode ++ h.encodeLists

/-- The octets of all fields before the extensions: the part of `ClientHello::serialize` that cannot
fail. -/
def encodeFields (h : ClientHello) : Bytes :=
  h.version.encode ++ h.random.encode ++ h.sessionId.encode ++ h.cookie.encode ++ h.encodeLists

/-- Writes the block unless it has no extensions. -/
def writeExtensions (xs : Extensions) : Writer :=
  if xs.isEmpty then Writer.skip else xs.write

/-- Writes the body: `ClientHello::serialize`. Whether it can be written is settled before anything
is. -/
def write (h : ClientHello) : Writer :=
  if h.suites.items.isEmpty then Writer.fail (.emptyList .cipherSuites)
  else if h.methods.items.isEmpty then Writer.fail (.emptyList .compressionMethods)
  else if 65535 < h.extensions.length then
    Writer.fail (.doesNotFit .extensions h.extensions.length 65535)
  else (Writer.put h.encodeFields).andThen (writeExtensions h.extensions)

/-- The length that the hello announces, added up from its fields: `body_length` of a `ClientHello`.
-/
def bodyLength (h : ClientHello) : Nat :=
  let block := if h.extensions.isEmpty then 0 else h.extensions.encodedLength
  2 + Random.encodedLength + 1 + h.sessionId.length + 1 + h.cookie.length
    + 2 + h.suites.items.length * 2 + 1 + h.methods.items.length + block

end ClientHello

end DatagramHello
