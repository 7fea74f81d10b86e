/-
The cipher suites that have a name here, out of the many that may be offered.
-/
import DatagramHello.Wire.Tag

set_option autoImplicit false

namespace DatagramHello

/-- The cipher suites with a name: `CipherSuite` without its `Unknown`. -/
inductive CipherSuite.Name where
  | pskAes128Ccm8
  | ecdheEcdsaAes128Ccm8
  | ecdheEcdsaAes128GcmSha256
  | ecdheRsaAes128GcmSha256
  | ecdheEcdsaAes256GcmSha384
  | ecdheRsaAes256GcmSha384
deriving DecidableEq

/-- Two octets a suite, numbered as `CipherSuite::as_u16` does. -/
instance CipherSuite.registry : Registry CipherSuite.Name where
  width := 2
  number
    | .pskAes128Ccm8 => 0xC0A8
    | .ecdheEcdsaAes128Ccm8 => 0xC0AE
    | .ecdheEcdsaAes128GcmSha256 => 0xC02B
    | .ecdheRsaAes128GcmSha256 => 0xC02F
    | .ecdheEcdsaAes256GcmSha384 => 0xC02C
    | .ecdheRsaAes256GcmSha384 => 0xC030
  number_lt k := by cases k <;> decide
  number_injective k l := by cases k <;> cases l <;> decide
  all := [.pskAes128Ccm8, .ecdheEcdsaAes128Ccm8, .ecdheEcdsaAes128GcmSha256,
    .ecdheRsaAes128GcmSha256, .ecdheEcdsaAes256GcmSha384, .ecdheRsaAes256GcmSha384]
  mem_all k := by cases k <;> decide
  label
    | .pskAes128Ccm8 => "PSK_AES128_CCM_8"
    | .ecdheEcdsaAes128Ccm8 => "ECDHE_ECDSA_AES128_CCM_8"
    | .ecdheEcdsaAes128GcmSha256 => "ECDHE_ECDSA_AES128_GCM_SHA256"
    | .ecdheRsaAes128GcmSha256 => "ECDHE_RSA_AES128_GCM_SHA256"
    | .ecdheEcdsaAes256GcmSha384 => "ECDHE_ECDSA_AES256_GCM_SHA384"
    | .ecdheRsaAes256GcmSha384 => "ECDHE_RSA_AES256_GCM_SHA384"

/-- A cipher suite, a 16-bit number. -/
abbrev CipherSuite := Tag CipherSuite.Name

/-- The suite numbered 0 negotiates nothing and has no name here. It is the `Default` of a
`CipherSuite`. -/
instance : Inhabited CipherSuite := ⟨.keep 0⟩

end DatagramHello
