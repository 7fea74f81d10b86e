/-
The steps of an exchange.

Each step either succeeds with a new state and a reply, or fails with an error
and leaves the state as it was. Steps that read or that check cookies also
leave events in the log, whether they succeed or not.
-/
import DatagramHello.Exchange.Basic

set_option autoImplicit false

namespace DatagramHello.Exchange

/-- Something an endpoint can be told to do. -/
inductive Step where
  | configure (settings : Settings)
  | renewSecret (secret : Octets 32)
  | setHello (hello : ClientHello)
  | setAnswer (answer : HelloVerify)
  | offerSuite (suite : CipherSuite)
  | offerMethod (method : CompressionMethod)
  | clearSuites
  | clearMethods
  | setVersion (version : Version)
  | setRandom (random : Random)
  | setSessionId (sessionId : SessionId)
  | setCookie (cookie : Cookie)
  | flipRandom (place : Nat) (mask : UInt8)
  /-- Puts the answer's cookie into the hello. -/
  | echo
  | pushExtension (source : Extension.Source)
  | clearExtensions
  | findExtension (type : ExtensionType)
  | countExtensions
  /-- Gives the hello the extensions at hand. -/
  | attach
  /-- Takes the hello's extensions to hand. -/
  | detach
  | inspect
  | writeExtensions
  | writeHello
  | writeBoundPart
  | sendHello (seq : UInt16)
  | sendAnswer (seq : UInt16)
  | append (bytes : Bytes)
  | clear
  | truncate (length : Nat)
  | overwrite (place : Nat) (bytes : Bytes)
  | receive
  | receiveExtensions
  | compute (peer : Peer)
  | verify (peer : Peer)
  | challenge (peer : Peer)

/-- What a step that succeeded answers. -/
inductive Reply where
  | done
  | config (config : Config)
  /-- Whether there was room for the entry. -/
  | accepted (yes : Bool)
  | count (n : Nat)
  | found (x : Option Extension)
  | extensions (xs : Extensions)
  /-- The extensions at hand are to be summarised. -/
  | summary (xs : Extensions)
  | hellos (hello : ClientHello) (answer : HelloVerify)
  | received (h : Handshake)
  | cookie (c : Cookie)
  | verdict (valid : Bool)
  | answer (r : HelloVerify)

/-- The result of a step: the new state and the reply, or why there is none. -/
abbrev Outcome := Logged (Except Error (Exchange × Reply))

/-- The outcome of a step that cannot fail and logs nothing. -/
def succeed (s : Exchange) (r : Reply := .done) : Outcome := ⟨[], .ok (s, r)⟩

/-- Runs a writer on the endpoint's buffer. -/
def writing (s : Exchange) (w : Writer) : Outcome :=
  match w s.out with
  | ⟨out, .ok ()⟩ => succeed { s with out }
  | ⟨_, .error e⟩ => ⟨[], .error e⟩

/-- Takes a received message over into the state. -/
def take (s : Exchange) (h : Handshake) : Exchange :=
  match h.body with
  | .clientHello hello => { s with hello }
  | .helloVerify answer => { s with answer }

/-- Does what the endpoint was told to. Each step is one call of the library with the parts of the
state as its arguments. -/
def step (s : Exchange) : Step → Outcome
  | .configure settings =>
    ⟨[], settings.build.map fun config => ({ s with config }, .config config)⟩
  | .renewSecret secret =>
    succeed { s with generator := { secret, config := s.config } } (.config s.config)
  | .setHello hello => succeed { s with hello }
  | .setAnswer answer => succeed { s with answer }
  | .offerSuite suite =>
    match s.hello.suites.push? suite with
    | some suites => succeed { s with hello := { s.hello with suites } } (.accepted true)
    | none => succeed s (.accepted false)
  | .offerMethod method =>
    match s.hello.methods.push? method with
    | some methods => succeed { s with hello := { s.hello with methods } } (.accepted true)
    | none => succeed s (.accepted false)
  | .clearSuites => succeed { s with hello := { s.hello with suites := AtMost.empty } }
  | .clearMethods => succeed { s with hello := { s.hello with methods := AtMost.empty } }
  | .setVersion version => succeed { s with hello := { s.hello with version } }
  | .setRandom random => succeed { s with hello := { s.hello with random } }
  | .setSessionId sessionId => succeed { s with hello := { s.hello with sessionId } }
  | .setCookie cookie => succeed { s with hello := s.hello.withCookie cookie }
  | .flipRandom place mask =>
    succeed { s with hello := { s.hello with random := s.hello.random.flip place mask } }
  | .echo => succeed { s with hello := s.hello.withCookie s.answer.cookie }
  | .pushExtension source =>
    ⟨[], (s.extensions.push source).map fun extensions =>
      ({ s with extensions }, .count extensions.count)⟩
  | .clearExtensions => succeed { s with extensions := Extensions.empty }
  | .findExtension type => succeed s (.found (s.extensions.find? type))
  | .countExtensions => succeed s (.summary s.extensions)
  | .attach => succeed { s with hello := s.hello.withExtensions s.extensions }
  | .detach => succeed { s with extensions := s.hello.extensions }
  | .inspect => succeed s (.hellos s.hello s.answer)
  | .writeExtensions => s.writing s.extensions.write
  | .writeHello => s.writing s.hello.write
  | .writeBoundPart => s.writing (Writer.put s.hello.boundPart)
  | .sendHello seq => s.writing (Handshake.write ⟨seq, .clientHello s.hello⟩)
  | .sendAnswer seq => s.writing (Handshake.write ⟨seq, .helloVerify s.answer⟩)
  | .append bytes => s.writing (Writer.put bytes)
  | .clear => succeed { s with out := Buffer.empty }
  | .truncate length => succeed { s with out := s.out.truncate length }
  | .overwrite place bytes => succeed { s with out := s.out.overwrite place bytes }
  | .receive =>
    (Handshake.decode s.config s.out.toBytes).map
      (·.map fun h => (s.take h, .received h))
  | .receiveExtensions =>
    (Extensions.decode s.out.toBytes).map
      (·.map fun extensions => ({ s with extensions }, .extensions extensions))
  | .compute peer => ⟨[], (s.generator.compute peer s.hello).map fun c => (s, .cookie c)⟩
  | .verify peer => (s.generator.verify peer s.hello).map fun valid => .ok (s, .verdict valid)
  | .challenge peer =>
    (s.generator.challenge peer s.hello).map
      (·.map fun answer => ({ s with answer }, .answer answer))

/-- The state after a step: the new one, or the one before it if the step failed. -/
def after (s : Exchange) (t : Step) : Exchange :=
  match (s.step t).value with
  | .ok (s', _) => s'
  | .error _ => s

/-- The state after a run of steps, in which a failure stops nothing. -/
def run (s : Exchange) (ts : List Step) : Exchange := ts.foldl after s

end DatagramHello.Exchange
