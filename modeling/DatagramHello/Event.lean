/-
What the library reports while it works.

Reading and cookie checking leave a log: each record is one event with its
numbers. Trace events are the ordinary course of things; debug events go with
a refusal. Not every failure has one: an input that merely ends early, or a
length over a limit, is reported by its error alone.
-/
import DatagramHello.Peer
import DatagramHello.Registry.ExtensionType
import DatagramHello.Registry.MessageType

set_option autoImplicit false

namespace DatagramHello

/-- How much attention an event deserves: `debug!` or `trace!`. -/
inductive Event.Level where
  | debug
  | trace
deriving DecidableEq

/-- A record of the log. -/
inductive Event where
  /-- An extension whose kind has no name was read: `Extension::parse`. -/
  | unassignedExtension (id : Nat)
  /-- An extension goes on beyond the announced end of its block: `HelloExtensions::parse`. -/
  | extensionOverrun (type : ExtensionType) (announced excess : Nat)
  /-- Something follows the block: `HelloExtensions::decode`. -/
  | bytesAfterExtensions (count : Nat)
  /-- The header announces a part of a message: `Handshake::parse`. -/
  | fragment (type : MessageType) (offset length total : Nat)
  /-- The body does not fill what was announced for it: `Handshake::parse`. -/
  | bytesAfterBody (type : MessageType) (count : Nat)
  /-- The kind of message is not read here: `Body::parse`. -/
  | noDecoder (type : MessageType)
  /-- An extension is of another kind than the caller asked for: `typed_data`. -/
  | otherExtension (expected found : ExtensionType)
  /-- A cookie is not as long as configured, and not empty: `CookieGenerator::verify`. -/
  | cookieLength (peer : Peer) (length expected : Nat)
  /-- A cookie is not the one that was computed: `CookieGenerator::verify`. -/
  | invalidCookie (peer : Peer)
  /-- A client is asked to repeat its hello: `CookieGenerator::hello_verify_request`. -/
  | challengeSent (peer : Peer)
deriving DecidableEq

namespace Event

/-- Two events belong to the ordinary course of things. -/
def level : Event → Level
  | .unassignedExtension _ => .trace
  | .challengeSent _ => .trace
  | _ => .debug

/-- The text of the record. -/
def message : Event → String
  | .unassignedExtension id => "Passing through unknown extension type " ++ toString id
  | .extensionOverrun type announced excess =>
    "Extension " ++ type.display ++ " overruns declared extensions length " ++ toString announced
      ++ " by " ++ toString excess
  | .bytesAfterExtensions count => toString count ++ " bytes after extensions block"
  | .fragment type offset length total =>
    "Fragmented " ++ type.label ++ " (offset " ++ toString offset ++ ", length " ++ toString length
      ++ " of " ++ toString total ++ ")"
  | .bytesAfterBody type count =>
    type.label ++ " body has " ++ toString count ++ " bytes beyond its fields"
  | .noDecoder type => "No decoder for handshake type " ++ type.label
  | .otherExtension expected found =>
    "Expected " ++ expected.display ++ " extension, got " ++ found.display
  | .cookieLength peer length expected =>
    "Cookie from " ++ peer.text ++ " has length " ++ toString length ++ ", expected "
      ++ toString expected
  | .invalidCookie peer => "Invalid cookie from " ++ peer.text
  | .challengeSent peer => "Sending HelloVerifyRequest to " ++ peer.text

end Event

/-- A value together with the events on the way to it, first event first. -/
structure Logged (α : Type) where
  log : List Event
  value : α

namespace Logged

variable {α β : Type}

/-- A value reached without events. -/
def silent (a : α) : Logged α := ⟨[], a⟩

/-- Changes the value and keeps the events. -/
def map (f : α → β) (x : Logged α) : Logged β := ⟨x.log, f x.value⟩

/-- A result that is passed on with a change is a success where the result is. -/
theorem map_eq_ok_iff {ε : Type} {x : Except ε α} {f : α → β} {b : β} :
    x.map f = .ok b ↔ ∃ a, x = .ok a ∧ f a = b := by
  rcases x with e | a
  · simp [Except.map]
  · simp [Except.map]

/-- The same for a result that was reached with events. -/
theorem value_map_eq_ok_iff {ε : Type} {x : Logged (Except ε α)} {f : α → β} {b : β} :
    (x.map (·.map f)).value = .ok b ↔ ∃ a, x.value = .ok a ∧ f a = b :=
  map_eq_ok_iff

end Logged

end DatagramHello
