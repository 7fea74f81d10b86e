/-
What a server decides once: the version it answers with, the length of its
cookies, and how large a handshake body it is ready to read.

A cookie is cut from a 32-octet MAC, so its length lies between 1 and 32.
`Config` carries that; `Settings` is what an operator asks for, which may lie
outside. An operator asks for one thing after the other, starting from the usual
settings, and only the outcome is looked at.
-/
import DatagramHello.Error
import DatagramHello.Hello.Version

set_option autoImplicit false

namespace DatagramHello

/-- Settings as asked for: `ConfigBuilder`, with the usual ones that `Config::builder` starts from.
-/
structure Settings where
  serverVersion : Version := Version.dtls12
  cookieLength : Nat := 32
  /-- The largest handshake body that is read. -/
  maxMessageLength : Nat := 16384
deriving DecidableEq

/-- One thing that an operator asks for: the setters of `ConfigBuilder`. -/
inductive Settings.Choice where
  | serverVersion (version : Version)
  | cookieLength (length : Nat)
  | maxMessageLength (length : Nat)
deriving DecidableEq

namespace Settings

/-- The settings with one of them asked for anew. -/
def choose (s : Settings) : Choice → Settings
  | .serverVersion version => { s with serverVersion := version }
  | .cookieLength length => { s with cookieLength := length }
  | .maxMessageLength length => { s with maxMessageLength := length }

/-- What a run of choices comes to. -/
def ofChoices (choices : List Choice) : Settings := choices.foldl choose {}

end Settings

/-- Settings that can be met: `Config`. The bounds are `MAX_COOKIE_LENGTH` and at least one octet.
-/
structure Config extends Settings where
  cookieLength_pos : 0 < cookieLength := by decide
  cookieLength_le : cookieLength ≤ 32 := by decide
deriving DecidableEq

/-- The `Default` of `Config`, which is not checked because the usual settings can be met. -/
instance : Inhabited Config := ⟨{}⟩

/-- Makes a configuration of what was asked for: `ConfigBuilder::build`. -/
def Settings.build (s : Settings) : Except Error Config :=
  if h : 0 < s.cookieLength ∧ s.cookieLength ≤ 32 then
    .ok { s with cookieLength_pos := h.1, cookieLength_le := h.2 }
  else
    .error (.doesNotFit .cookieLength s.cookieLength 32)

/-- Settings are met as they are, or not at all. -/
theorem Settings.build_eq_ok_iff {s : Settings} {config : Config} :
    s.build = .ok config
      ↔ 0 < s.cookieLength ∧ s.cookieLength ≤ 32 ∧ config.toSettings = s := by
  unfold build
  constructor
  · intro h
    split at h
    case isTrue hbounds =>
      cases h
      exact ⟨hbounds.1, hbounds.2, rfl⟩
    case isFalse => contradiction
  · rintro ⟨hpos, hle, rfl⟩
    rw [dif_pos ⟨hpos, hle⟩]

/-- The configuration is the usual one, or it was made of what some run of choices came to. -/
def Config.Obtainable (config : Config) : Prop :=
  config = default ∨ ∃ choices, (Settings.ofChoices choices).build = .ok config

/-- Nothing that an operator asks for gets around the bounds. -/
theorem Config.Obtainable.cookieLength_bounds {config : Config} (h : config.Obtainable) :
    1 ≤ config.cookieLength ∧ config.cookieLength ≤ 32 := by
  rcases h with rfl | ⟨choices, hbuilt⟩
  · decide
  · obtain ⟨hpos, hle, hsame⟩ := Settings.build_eq_ok_iff.mp hbuilt
    rw [hsame]
    exact ⟨hpos, hle⟩

end DatagramHello
