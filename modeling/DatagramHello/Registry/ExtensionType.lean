/-
The kinds of hello extension that have a name.

Besides its label a kind has a wire name in snake case, which displays and log
records use; an unassigned kind shows its number there.
-/
import DatagramHello.Wire.Tag

set_option autoImplicit false

namespace DatagramHello

/-- The kinds of extension with a name: `ExtensionType` without its `Unknown`. -/
inductive ExtensionType.Name where
  | serverName
  | maxFragmentLength
  | clientCertificateUrl
  | trustedCaKeys
  | truncatedHmac
  | statusRequest
  | userMapping
  | ellipticCurves
  | ecPointFormats
deriving DecidableEq

/-- Two octets a kind, numbered as `ExtensionType::as_u16` does. -/
instance ExtensionType.registry : Registry ExtensionType.Name where
  width := 2
  number
    | .serverName => 0
    | .maxFragmentLength => 1
    | .clientCertificateUrl => 2
    | .trustedCaKeys => 3
    | .truncatedHmac => 4
    | .statusRequest => 5
    | .userMapping => 6
    | .ellipticCurves => 10
    | .ecPointFormats => 11
  number_lt k := by cases k <;> decide
  number_injective k l := by cases k <;> cases l <;> decide
  all := [.serverName, .maxFragmentLength, .clientCertificateUrl, .trustedCaKeys, .truncatedHmac,
    .statusRequest, .userMapping, .ellipticCurves, .ecPointFormats]
  mem_all k := by cases k <;> decide
  label
    | .serverName => "ServerName"
    | .maxFragmentLength => "MaxFragmentLength"
    | .clientCertificateUrl => "ClientCertificateUrl"
    | .trustedCaKeys => "TrustedCaKeys"
    | .truncatedHmac => "TruncatedHmac"
    | .statusRequest => "StatusRequest"
    | .userMapping => "UserMapping"
    | .ellipticCurves => "EllipticCurves"
    | .ecPointFormats => "EcPointFormats"

/-- A kind of hello extension, a 16-bit number. -/
abbrev ExtensionType := Tag ExtensionType.Name

/-- The name in snake case. -/
def ExtensionType.Name.wireName : ExtensionType.Name → String
  | .serverName => "server_name"
  | .maxFragmentLength => "max_fragment_length"
  | .clientCertificateUrl => "client_certificate_url"
  | .trustedCaKeys => "trusted_ca_keys"
  | .truncatedHmac => "truncated_hmac"
  | .statusRequest => "status_request"
  | .userMapping => "user_mapping"
  | .ellipticCurves => "elliptic_curves"
  | .ecPointFormats => "ec_point_formats"

namespace ExtensionType

/-- The wire name, or a common word for every kind without one: `ExtensionType::name`. -/
def wireName : ExtensionType → String
  | .registered k => k.wireName
  | .unassigned _ => "unknown"

/-- The wire name, or the number of a kind without one: the `Display` of `ExtensionType`. -/
def display : ExtensionType → String
  | .registered k => k.wireName
  | .unassigned n => "unknown(" ++ toString n.val ++ ")"

end ExtensionType

end DatagramHello
