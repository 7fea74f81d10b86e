/-
What a generator can tell about itself without giving away its secret.
-/
import DatagramHello.Cookie.Generator

set_option autoImplicit false

namespace DatagramHello.Generator

/-- Facts about a generator at one peer and hello that hold for every secret. -/
structure SelfCheck where
  /-- The length of the cookie that is computed. -/
  cookieLength : Nat
  config : Config
  /-- Whether the hello's own cookie passes. -/
  before : Bool
  /-- Whether computing twice gives one cookie. -/
  stable : Bool
  /-- Whether the computed cookie passes. -/
  after : Bool

/-- Computes a cookie, then checks the hello as it is and with the cookie. -/
def selfCheck (g : Generator) (peer : Peer) (hello : ClientHello) :
    Logged (Except Error SelfCheck) :=
  match g.compute peer hello with
  | .error e => ⟨[], .error e⟩
  | .ok cookie =>
    let before := g.verify peer hello
    let stable := (g.compute peer hello).toOption == some cookie
    let after := g.verify peer (hello.withCookie cookie)
    ⟨before.log ++ after.log,
      .ok ⟨cookie.length, g.config, before.value, stable, after.value⟩⟩

end DatagramHello.Generator
