/-
Messages on the way in.

A message's header says how long the body is, so its reader cuts the body out
before looking into it, and everything that is found out there, right or wrong,
stays as it is whatever comes after. That includes what is found out about a
client hello, whose own reader asks whether anything is left: inside the body
the answer is the header's.

So there is no verdict on a message but one that may change with more input,
and that is running out of it. Conversely a message that was cut short is never
taken for anything but that.
-/
import DatagramHello.Proofs.Handshake.Codec
import DatagramHello.Proofs.Hello.Final

set_option autoImplicit false

namespace DatagramHello

/-- A header is twelve octets, whatever follows. -/
theorem Header.final_read : Header.read.Final :=
  Tag.final_read.bind fun _ => (Reader.final_number 3).bind fun _ =>
    (Reader.final_number 2).bind fun _ => (Reader.final_number 3).bind fun _ =>
      (Reader.final_number 3).bind fun _ => Reader.final_pure _

namespace Handshake

/-- Fragments and long bodies are refused on the header alone, and the rest is found out inside the
body. -/
theorem final_read (limit : Nat) : (read limit).Final := by
  refine Header.final_read.bind fun header => (Reader.final_refuse _ _).ite ?_
  refine (Reader.final_fail _).ite ((Reader.final_take _).bind fun field => ?_)
  refine (Reader.final_inside _ _).bind fun found => Reader.Final.ite ?_ (Reader.final_refuse _ _)
  exact Reader.final_pure _

/-- A message of which anything is missing at the end is found too short. -/
theorem value_decode_of_prefix {config : Config} {input front : Bytes} {h : Handshake}
    (hdecode : (decode config input).value = .ok h) (hfront : front <+: input)
    (hshort : front ≠ input) : (decode config front).value = .error .truncated := by
  obtain ⟨missing, rfl⟩ := hfront
  refine (final_read config.maxMessageLength).value_whole_of_append hdecode ?_
  rintro rfl
  exact hshort (List.append_nil front).symm

/-- **Verdicts stay.** Header, extension, extensions block, list of curves or of point formats,
session id, cookie, random field, challenge and message: whatever is said of an input, but that it
ends too early, is said of it with anything behind. So it is for a client hello, unless the input
ends with its compression methods. Then it is a hello without extensions, and what follows is read
as the extensions of that hello. And of a message nothing can be missing unnoticed. -/
theorem final_verdicts :
    Header.read.Final ∧ Extension.read.Final ∧ Extensions.read.Final
      ∧ SupportedCurves.read.Final ∧ SupportedFormats.read.Final
      ∧ (Token.read .cookie).Final ∧ (Token.read .sessionId).Final ∧ Random.read.Final
      ∧ HelloVerify.read.Final ∧ (∀ limit, (Handshake.read limit).Final)
      ∧ (∀ input, ¬ ClientHello.EndsAfterMethods input → ClientHello.read.FinalAt input)
      ∧ (∀ input, ClientHello.EndsAfterMethods input →
          ∃ h : ClientHello, h.extensions = {} ∧ ClientHello.read.Accepts input h []
            ∧ ∀ more, more ≠ [] → (ClientHello.read (input ++ more)).value
                = (Extensions.read more).value.map fun found =>
                    (h.withExtensions found.1, found.2))
      ∧ ∀ (config : Config) (input : Bytes) (h : Handshake),
          (decode config input).value = .ok h →
          ∀ front, front <+: input → front ≠ input →
            (decode config front).value = .error .truncated := by
  refine ⟨Header.final_read, Extension.final_read, Extensions.final_read,
    SupportedCurves.final_read, SupportedFormats.final_read, Token.final_read .cookie,
    Token.final_read .sessionId, Random.final_read, HelloVerify.final_read, final_read, ?_, ?_, ?_⟩
  · intro input hends
    exact ClientHello.finalAt_read hends
  · intro input hends
    exact ClientHello.read_of_endsAfterMethods hends
  · intro config input h hdecode front hfront hshort
    exact value_decode_of_prefix hdecode hfront hshort

/-- A challenge with a cookie of three octets. -/
def threeOctetChallenge : Handshake := ⟨0, .helloVerify ⟨Version.dtls12, ⟨[1, 2, 3], by decide⟩⟩⟩

/-- The challenge is decoded from its 18 octets and found too short without the last one. The fields
of a hello are read as a hello, until a single octet behind them announces a block. -/
theorem final_verdicts_threeOctetChallenge :
    (decode default threeOctetChallenge.encode).value = .ok threeOctetChallenge
      ∧ (decode default (threeOctetChallenge.encode.take 17)).value = .error .truncated
      ∧ (∃ h, ClientHello.read.Accepts ClientHello.plain.encodeFields h [])
      ∧ (ClientHello.read (ClientHello.plain.encodeFields ++ [0])).value = .error .truncated := by
  obtain ⟨-, -, -, -, -, -, -, -, -, -, -, hends, hprefix⟩ := final_verdicts
  have hdecode : (decode default threeOctetChallenge.encode).value = .ok threeOctetChallenge :=
    decode_encode trivial (by decide)
  obtain ⟨h, -, hread, hmore⟩ :=
    hends ClientHello.plain.encodeFields ⟨ClientHello.plain, by decide, by decide, rfl⟩
  refine ⟨hdecode, ?_, ⟨h, hread⟩, ?_⟩
  · exact hprefix default _ _ hdecode _ (List.take_prefix 17 _) (by decide)
  · rw [hmore [0] (by decide)]
    rfl

end Handshake

end DatagramHello
