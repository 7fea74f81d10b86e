/-
Why reading, writing or building a value fails.

Each constructor is one cause, with the numbers its message shows. What a
failure was about is a value of its own (`Field`, `Listing`, `FramingFault`)
and has a constructor for the words of a caller's own message type.
-/
import DatagramHello.Wire.Bytes

set_option autoImplicit false

namespace DatagramHello

/-- A field whose length has bounds: the `field` of `Error::Encoding`. -/
inductive Field where
  | sessionId
  | cookie
  | cookieLength
  | extensionData
  | extensions
  | handshakeBody
  | other (words : String)
deriving DecidableEq

/-- The text of a field in `Error::Encoding`. -/
def Field.words : Field → String
  | .sessionId => "session_id"
  | .cookie => "cookie"
  | .cookieLength => "cookie_length"
  | .extensionData => "extension_data"
  | .extensions => "extensions"
  | .handshakeBody => "handshake body"
  | .other words => words

/-- A list whose number of entries has bounds: what `Error::EmptyList` and `Error::TooManyEntries`
are about. -/
inductive Listing where
  | cipherSuites
  | compressionMethods
  | ellipticCurves
  | pointFormats
  | other (words : String)
deriving DecidableEq

/-- The text of a list in `Error::EmptyList` and `Error::TooManyEntries`. -/
def Listing.words : Listing → String
  | .cipherSuites => "cipher suites"
  | .compressionMethods => "compression methods"
  | .ellipticCurves => "elliptic curves"
  | .pointFormats => "ec point formats"
  | .other words => words

/-- How lengths and contents can disagree: one constructor for each text that is given to
`Error::Framing`. -/
inductive FramingFault where
  | extensionOverrun
  | bytesAfterExtensions
  | fragmented
  | bytesAfterBody
  | bytesAfterHandshake
  | cipherSuitesLength
  | noCompressionMethods
  | oddCurvesLength
  | bytesAfterCurves
  | bytesAfterPointFormats
  | unexpectedExtension
  | other (words : String)
deriving DecidableEq

/-- The text of a fault in `Error::Framing`. -/
def FramingFault.words : FramingFault → String
  | .extensionOverrun => "extension overruns declared length"
  | .bytesAfterExtensions => "trailing bytes after extensions"
  | .fragmented => "fragmented handshake"
  | .bytesAfterBody => "trailing bytes in handshake body"
  | .bytesAfterHandshake => "trailing bytes after handshake"
  | .cipherSuitesLength => "bad cipher suites length"
  | .noCompressionMethods => "no compression methods"
  | .oddCurvesLength => "odd elliptic curve list length"
  | .bytesAfterCurves => "trailing bytes in elliptic_curves"
  | .bytesAfterPointFormats => "trailing bytes in ec_point_formats"
  | .unexpectedExtension => "unexpected extension type"
  | .other words => words

/-- What a general parsing combinator may report about its input: an `ErrorKind`. -/
inductive ParseFault where
  | endOfInput
  | incomplete
  | tag
  | verify
  | many
  | lengthValue
  | tooLarge
  | fail
deriving DecidableEq

/-- How an `ErrorKind` is printed. -/
def ParseFault.words : ParseFault → String
  | .endOfInput => "Eof"
  | .incomplete => "Complete"
  | .tag => "Tag"
  | .verify => "Verify"
  | .many => "Many0"
  | .lengthValue => "LengthValue"
  | .tooLarge => "TooLarge"
  | .fail => "Fail"

/-- Why an operation failed: `Error`. -/
inductive Error where
  /-- A length lies outside what its field can hold: `Encoding`. -/
  | doesNotFit (field : Field) (length max : Nat)
  /-- The input ends before the value does: `TruncatedMessage`. -/
  | truncated
  /-- A list that needs an entry has none to write: `EmptyList`. -/
  | emptyList (list : Listing)
  /-- Lengths and contents disagree: `Framing`. -/
  | framing (fault : FramingFault)
  /-- No decoder for the handshake message numbered `id`: `UnsupportedMessageType`. -/
  | unsupportedMessage (id : Nat)
  /-- A header announces a body longer than the reader accepts: `TooBigLength`. -/
  | tooBig (length max : Nat)
  /-- A list on the wire has more entries than there is room for: `TooManyEntries`. -/
  | tooMany (list : Listing) (max : Nat)
  /-- A parsing combinator failed in a way of its own: `Parse`. -/
  | parse (fault : ParseFault)
  /-- A code could not be set up: `Crypto`. The secret always has the right length, so no operation
  here fails with it. -/
  | crypto (words : String)
deriving DecidableEq

namespace Error

/-- The message shown to a user: the `Display` of `Error`. -/
def message : Error → String
  | .doesNotFit field length max =>
    field.words ++ " of length " ++ toString length ++ " does not fit its wire field (max "
      ++ toString max ++ ")"
  | .truncated => "Message truncated"
  | .emptyList list => "No " ++ list.words ++ " to encode"
  | .framing fault => "Framing error: " ++ fault.words
  | .unsupportedMessage id => "Unsupported handshake message type " ++ toString id
  | .tooBig length max =>
    "Too big handshake length " ++ toString length ++ " (max " ++ toString max ++ ")"
  | .tooMany list max => "Too many " ++ list.words ++ " (max " ++ toString max ++ ")"
  | .parse fault => "Parse error: " ++ fault.words
  | .crypto words => "Crypto error: " ++ words

/-- The error for a parse fault, `Error::from_error_kind`: running out of input is truncation,
whichever way a combinator puts it. -/
def ofParseFault : ParseFault → Error
  | .endOfInput | .incomplete => .truncated
  | fault => .parse fault

/-- The error that remains when a combinator meets `fault` while `inner` is on its way up,
`Error::append`: the inner one, which is closer to the cause. -/
def within (_fault : ParseFault) (inner : Error) : Error := inner

end Error

end DatagramHello
