/-
The one cookie that is accepted.

Three pieces written apart have to fit together: the bounds that a configuration
puts on the length of cookies, the cut that makes a cookie out of a code, and the
check, which looks at the length before it compares a front part. If the length
could be 0, every hello without a cookie would pass; if it could be more than 32,
there would be nothing to cut; and if the check compared before it looked at the
length, one octet of a cookie would do.

They do fit: whatever the code and whatever an operator asked for, a cookie is
made, and it passes alone.
-/
import DatagramHello.Proofs.Cookie.Binding

set_option autoImplicit false

namespace DatagramHello.Generator

variable {g : Generator} {peer : Peer} {hello : ClientHello}

/-- The cookie that passes with a hello passes with every hello whose bound fields are the same, and
no other does. -/
theorem value_verify_iff_of_sameBound {other : ClientHello} (hbound : hello.SameBound other) :
    (g.verify peer other).value = true ↔ other.cookie = g.cookie peer hello := by
  have hinput : macInput peer other = macInput peer hello :=
    macInput_congr rfl rfl (ClientHello.boundPart_eq_iff.mpr hbound).symm
  rw [value_verify_iff, cookie_congr hinput]

/-- A hello with any other cookie does not pass. -/
theorem value_verify_of_ne {own : Cookie} (hother : own ≠ g.cookie peer hello) :
    (g.verify peer (hello.withCookie own)).value = false := by
  rw [← Bool.not_eq_true, value_verify_iff, cookie_withCookie]
  exact hother

/-- **The cookie that is accepted.** Under every configuration that can be come by, a cookie is
computed for every peer and hello, the same whatever cookie the hello has. It is the front of the
code, as long as configured and so between 1 and 32 octets long. A hello with the same bound fields
passes from this peer exactly if this is its cookie. So none of another length passes: not the empty
one, no front part of this one, and none that goes on behind it. -/
theorem accepts_exactly_computed (g : Generator) (hconfig : g.config.Obtainable) (peer : Peer)
    (hello : ClientHello) :
    ∃ c : Cookie,
      g.compute peer hello = .ok c
      ∧ (∀ own : Cookie, g.compute peer (hello.withCookie own) = .ok c)
      ∧ c.bytes = (g.mac g.secret (macInput peer hello)).bytes.take g.config.cookieLength
      ∧ c.length = g.config.cookieLength ∧ 1 ≤ c.length ∧ c.length ≤ 32
      ∧ ((g.verify peer hello).value = true ↔ hello.cookie = c)
      ∧ (∀ other : ClientHello, hello.SameBound other →
          ((g.verify peer other).value = true ↔ other.cookie = c))
      ∧ (g.verify peer (hello.withCookie Token.empty)).value = false
      ∧ ∀ own : Cookie, own.length ≠ c.length →
          (g.verify peer (hello.withCookie own)).value = false := by
  obtain ⟨hpos, hle⟩ := hconfig.cookieLength_bounds
  have hlength : (g.cookie peer hello).length = g.config.cookieLength := length_cookie
  refine ⟨g.cookie peer hello, compute_eq g peer hello, ?_, rfl, hlength, ?_, ?_,
    value_verify_iff, ?_, ?_, ?_⟩
  · intro own
    rw [compute_eq, cookie_withCookie]
  · rw [hlength]
    exact hpos
  · rw [hlength]
    exact hle
  · intro other hbound
    exact value_verify_iff_of_sameBound hbound
  · refine value_verify_of_ne ?_
    -- a cookie of at least one octet is not the empty one
    intro hempty
    rw [← hempty] at hlength
    have hnone : (Token.empty : Cookie).length = 0 := rfl
    omega
  · intro own hother
    refine value_verify_of_ne ?_
    rintro rfl
    exact hother rfl

/-- A code that shows the length of its input in every octet. -/
def counting : Mac := fun _ message =>
  Octets.generate 32 fun i => UInt8.ofNat (message.length + i)

/-- A length that cannot be met, put right by the next choice. -/
def corrected : List Settings.Choice :=
  [.cookieLength 40, .serverVersion Version.dtls10, .cookieLength 3]

/-- A generator that issues cookies of three octets. -/
def threeOctets : Generator where
  mac := counting
  secret := Octets.zero 32
  config := { serverVersion := Version.dtls10, cookieLength := 3 }

/-- With cookies of three octets the three octets pass, and neither two of them nor a fourth one
more. -/
theorem accepts_exactly_computed_threeOctets :
    threeOctets.config.Obtainable
      ∧ (threeOctets.verify (linkPeer 0 0)
          (ClientHello.plain.withCookie ⟨[59, 60, 61], by decide⟩)).value = true
      ∧ (threeOctets.verify (linkPeer 0 0)
          (ClientHello.plain.withCookie ⟨[59, 60], by decide⟩)).value = false
      ∧ (threeOctets.verify (linkPeer 0 0)
          (ClientHello.plain.withCookie ⟨[59, 60, 61, 62], by decide⟩)).value = false := by
  have hconfig : threeOctets.config.Obtainable :=
    .inr ⟨corrected, Settings.build_eq_ok_iff.mpr ⟨by decide, by decide, rfl⟩⟩
  obtain ⟨c, -, -, hbytes, -, -, -, -, hpasses, -, hrefused⟩ :=
    accepts_exactly_computed threeOctets hconfig (linkPeer 0 0) ClientHello.plain
  have hc : c = ⟨[59, 60, 61], by decide⟩ := by
    rw [Token.mk.injEq, hbytes]
    decide
  have hsame : ClientHello.plain.SameBound (ClientHello.plain.withCookie c) :=
    ⟨rfl, rfl, rfl, rfl, rfl⟩
  refine ⟨hconfig, ?_, ?_, ?_⟩
  · rw [← hc]
    exact (hpasses _ hsame).mpr rfl
  · exact hrefused _ (by rw [hc]; decide)
  · exact hrefused _ (by rw [hc]; decide)

end DatagramHello.Generator
