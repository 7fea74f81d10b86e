/-
Which parts of a hello tell where they end.

Every field of a hello says itself how long it is, so its reader's verdict is
final, and so is that on an extensions block, whose loop is told its length in
advance. The client hello is the one reader whose verdict is not. It asks after
its last field whether anything is left, and an input that ends there, which is
read as a hello without extensions, goes on to be read as one with whatever
block follows. At every other input its verdict is final as well.
-/
import DatagramHello.Extension.SupportedCurves
import DatagramHello.Extension.SupportedFormats
import DatagramHello.Proofs.Hello.Codec
import DatagramHello.Proofs.Wire.Final

set_option autoImplicit false

namespace DatagramHello

/-! ## Tags

A tag is a number, and a list of tags is taken as a field before it is looked at. -/

namespace Tag

variable {κ : Type} [Registry κ]

/-- A tag that was read stays what it is. -/
theorem final_read : (Tag.read : Reader (Tag κ)).Final :=
  (Reader.final_number _).bind fun _ => Reader.final_pure _

/-- The field is taken before its entries are counted, so a list that is too long is known to be. -/
theorem final_readList (max : Nat) (list : Listing) (octets : Nat) :
    (readList max list octets : Reader (AtMost max (Tag κ))).Final := by
  refine (Reader.final_take octets).bind fun field => ?_
  exact Reader.Final.dite (fun _ => Reader.final_pure _) fun _ => Reader.final_fail _

end Tag

/-! ## Extensions

The readers of the data of an extension, of the two lists and of the block. The loop of the block is
the only recursion among the readers. -/

/-- The data of an extension are as long as it says, so nothing behind them matters. -/
theorem Extension.final_read : Extension.read.Final := by
  refine Tag.final_read.bind fun type => (Reader.final_number 2).bind fun length =>
    (Reader.final_take _).bind fun field => Reader.Final.bind ?_ fun _ => Reader.final_pure _
  rcases type with k | n
  · exact Reader.final_pure ()
  · exact Reader.final_note _

/-- A list of curves ends where its length says. -/
theorem SupportedCurves.final_read : SupportedCurves.read.Final := by
  refine (Reader.final_number 2).bind fun octets => Reader.Final.ite ?_ (Reader.final_fail _)
  exact (Tag.final_readList _ _ _).bind fun _ => Reader.final_pure _

/-- A list of point formats ends where its length says. -/
theorem SupportedFormats.final_read : SupportedFormats.read.Final :=
  (Reader.final_number 1).bind fun _ =>
    (Tag.final_readList _ _ _).bind fun _ => Reader.final_pure _

namespace Extensions

/-- The loop is told how much it is to read, so it never asks what is left. -/
theorem final_readEntries (announced remaining : Nat) :
    (readEntries announced remaining).Final := by
  induction remaining using Nat.strongRecOn with
  | ind remaining ih =>
    rw [readEntries]
    refine Reader.Final.dite (fun _ => Reader.final_pure _) fun hmore => ?_
    refine Extension.final_read.bind fun x => Reader.Final.dite (fun hfits => ?_) fun _ => ?_
    -- the next round has less to read, by the size of the extension
    · have := x.size_pos
      exact (ih _ (by omega)).map _
    · exact Reader.final_refuse _ _

/-- The block is told its length in advance, so its verdict is final. -/
theorem final_read : read.Final :=
  (Reader.final_number 2).bind fun _ =>
    (final_readEntries _ _).bind fun _ => Reader.final_pure _

end Extensions

/-! ## Fields

The fields of the two hello bodies. -/

/-- A version is two octets, whatever follows. -/
theorem Version.final_read : Version.read.Final :=
  Reader.final_octet.bind fun _ => Reader.final_octet.bind fun _ => Reader.final_pure _

/-- A random field is 32 octets, whatever follows. -/
theorem Random.final_read : Random.read.Final :=
  (Reader.final_number 4).bind fun _ => (Reader.final_take 28).bind fun _ => Reader.final_pure _

/-- A length over the limit is refused before the octets are looked for, and no octets mend it. -/
theorem Token.final_read (kind : TokenKind) : (Token.read kind).Final := by
  refine (Reader.final_number 1).bind fun length => Reader.Final.dite (fun _ => ?_) fun _ => ?_
  · exact (Reader.final_take _).bind fun _ => Reader.final_pure _
  · exact Reader.final_fail _

/-- The answer with the cookie ends with the cookie, and that says how long it is. -/
theorem HelloVerify.final_read : HelloVerify.read.Final :=
  Version.final_read.bind fun _ => (Token.final_read .cookie).bind fun _ => Reader.final_pure _

/-! ## The client hello

The one reader that looks for the end of its input. Where it finds that end is described by
`EndsAfterMethods`; at such an input the verdict is a hello, and what more input does to it is said
as well. -/

namespace ClientHello

variable {input : Bytes}

/-- The verdict on the cipher suites is final. -/
theorem final_readSuites : readSuites.Final :=
  (Reader.final_number 2).bind fun _ =>
    (Reader.final_fail _).ite (Tag.final_readList _ _ _)

/-- The verdict on the compression methods is final. -/
theorem final_readMethods : readMethods.Final :=
  (Reader.final_number 1).bind fun _ =>
    (Reader.final_fail _).ite (Tag.final_readList _ _ _)

/-- The octets are the fields of some hello up to its compression methods, and end there. -/
def EndsAfterMethods (bs : Bytes) : Prop :=
  ∃ k : ClientHello, k.suites.items ≠ [] ∧ k.methods.items ≠ [] ∧ bs = k.encodeFields

/-- Once there is an octet behind the fields, the extensions are a block and its verdict is final.
-/
theorem finalAt_readExtensions (h : input ≠ []) : readExtensions.FinalAt input := by
  refine (Reader.finalAt_atEnd h).bind fun finished rest _ => ?_
  exact (Reader.final_pure _).ite Extensions.final_read rest

/-- Unless the input ends after the compression methods, the verdict on a hello is final. -/
theorem finalAt_read (hends : ¬ EndsAfterMethods input) : read.FinalAt input := by
  refine (Version.final_read input).bind fun version i₁ hversion => ?_
  refine (Random.final_read i₁).bind fun random i₂ hrandom => ?_
  refine (Token.final_read .sessionId i₂).bind fun sessionId i₃ hsessionId => ?_
  refine (Token.final_read .cookie i₃).bind fun cookie i₄ hcookie => ?_
  refine (final_readSuites i₄).bind fun suites i₅ hsuites => ?_
  refine (final_readMethods i₅).bind fun methods i₆ hmethods => ?_
  -- all fields were read, so the input would end after them if nothing were left
  have hleft : i₆ ≠ [] := by
    rintro rfl
    obtain ⟨hsuitesNe, -, rfl⟩ := accepts_readSuites.mp hsuites
    obtain ⟨hmethodsNe, -, rfl⟩ := accepts_readMethods.mp hmethods
    rw [Version.accepts_read] at hversion
    rw [Random.accepts_read] at hrandom
    rw [Token.accepts_read] at hsessionId hcookie
    subst hcookie hsessionId hrandom hversion
    let k : ClientHello := { version, random, sessionId, cookie, suites, methods }
    have hrow := k.encodeFields_append []
    rw [List.append_nil] at hrow
    exact hends ⟨k, hsuitesNe, hmethodsNe, hrow.symm⟩
  exact (finalAt_readExtensions hleft).bind fun _ rest _ => Reader.final_pure _ rest

/-- Behind the fields of a hello, what is read is what the octets after them are read as. -/
theorem value_read_encodeFields {k : ClientHello} (hsuites : k.suites.items ≠ [])
    (hmethods : k.methods.items ≠ []) (tail : Bytes) :
    (read (k.encodeFields ++ tail)).value
      = (readExtensions tail).value.map fun found =>
          (k.canonical.withExtensions found.1, found.2) := by
  have hproper := k.proper_canonical
  -- field by field, each read where its octets stand
  rw [← encodeFields_canonical, encodeFields_append, read,
    Reader.value_bind_of_accepts (Version.accepts_read.mpr rfl),
    Reader.value_bind_of_accepts (Random.accepts_read.mpr rfl),
    Reader.value_bind_of_accepts (Token.accepts_read.mpr rfl),
    Reader.value_bind_of_accepts (Token.accepts_read.mpr rfl),
    Reader.value_bind_of_accepts (accepts_readSuites.mpr ⟨?_, hproper.1, rfl⟩),
    Reader.value_bind_of_accepts (accepts_readMethods.mpr ⟨?_, hproper.2.1, rfl⟩)]
  · rcases readExtensions.accepts_or_error tail with ⟨xs, rest, hread⟩ | ⟨e, hread⟩
    · rw [Reader.value_bind_of_accepts hread, hread]
      rfl
    · rw [Reader.value_bind_of_error hread, hread]
      rfl
  · simpa [canonical] using hmethods
  · simpa [canonical] using hsuites

/-- Where the fields end the input, it is read as a hello without extensions, and anything that
follows is read as the extensions of that hello. -/
theorem read_of_endsAfterMethods (hends : EndsAfterMethods input) :
    ∃ h : ClientHello, h.extensions = {} ∧ read.Accepts input h []
      ∧ ∀ more, more ≠ [] → (read (input ++ more)).value
          = (Extensions.read more).value.map fun found => (h.withExtensions found.1, found.2) := by
  obtain ⟨k, hsuites, hmethods, rfl⟩ := hends
  refine ⟨k.canonical.withExtensions {}, rfl, ?_, ?_⟩
  · have hread := value_read_encodeFields hsuites hmethods []
    rw [List.append_nil] at hread
    exact hread
  · intro more hmore
    have hblock : (readExtensions more).value = (Extensions.read more).value := by
      rw [readExtensions, Reader.value_bind_of_accepts (Reader.accepts_atEnd.mpr ⟨rfl, rfl⟩),
        if_neg (by simpa using hmore)]
    rw [value_read_encodeFields hsuites hmethods, hblock]
    rfl

end ClientHello

end DatagramHello
