/-
The random field of a hello: the sender's clock in seconds, then 28 random
octets.
-/
import DatagramHello.Wire.Reader

set_option autoImplicit false

namespace DatagramHello

/-- The random field of a hello: `Random`. -/
structure Random where
  /-- Seconds since the epoch, as far as 32 bits go: `gmt_unix_time`. -/
  time : UInt32
  octets : Octets 28
deriving DecidableEq

namespace Random

/-- How many octets the field takes: `Random::LEN`. -/
def encodedLength : Nat := 32

/-- The seconds that a clock shows, given in nanoseconds from the epoch. A clock set before the
epoch counts as standing at the epoch. -/
def clockSeconds (nanoseconds : Int) : UInt32 :=
  UInt32.ofNat (nanoseconds.toNat / 1000000000)

/-- A random field made at the given time with octets from `source`: `Random::new`, with the source
of randomness as an argument. -/
def generate (nanoseconds : Int) (source : Nat → UInt8) : Random :=
  ⟨clockSeconds nanoseconds, Octets.generate 28 source⟩

/-- The clock in front of the octets: `Random::serialize`. -/
def encode (r : Random) : Bytes := Bytes.bigEndian 4 r.time.toNat ++ r.octets.bytes

/-- Reads the clock, then 28 octets: `Random::parse`. -/
def read : Reader Random := do
  let time ← Reader.number 4
  let octets ← Reader.take 28
  pure ⟨UInt32.ofNat time.val, octets⟩

/-- The field with the octet at `place`, counted round, changed where `mask` has a one. -/
def flip (r : Random) (place : Nat) (mask : UInt8) : Random :=
  { r with
    octets := ⟨r.octets.bytes.modify (place % 28) (· ^^^ mask), by simp [r.octets.length_bytes]⟩ }

/-- The field takes as many octets as `encodedLength` says. -/
@[simp] theorem length_encode (r : Random) : r.encode.length = encodedLength := by
  simp [encode, encodedLength, r.octets.length_bytes]

end Random

end DatagramHello
