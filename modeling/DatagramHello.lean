import DatagramHello.Cookie.SelfCheck
import DatagramHello.Exchange.Step
import DatagramHello.Extension.SupportedCurves
import DatagramHello.Extension.SupportedFormats
import DatagramHello.Probe
import DatagramHello.Proofs.Wire.Canonical
import DatagramHello.Proofs.Wire.Fails
import DatagramHello.Proofs.Extension.Codec
import DatagramHello.Proofs.Hello.Codec
import DatagramHello.Proofs.Handshake.Codec
import DatagramHello.Proofs.Wire.Delimited
import DatagramHello.Proofs.Handshake.Stream
import DatagramHello.Proofs.Handshake.Spelling
import DatagramHello.Proofs.Cookie.Generator
import DatagramHello.Proofs.Cookie.Families
import DatagramHello.Proofs.Cookie.Exchange
import DatagramHello.Proofs.Hello.Final
import DatagramHello.Proofs.Handshake.Final
import DatagramHello.Proofs.Handshake.Atomic
import DatagramHello.Proofs.Cookie.Binding
import DatagramHello.Proofs.Cookie.Accepted
import DatagramHello.Proofs.Extension.Tiling
import DatagramHello.Proofs.Extension.Container
import DatagramHello.Proofs.Handshake.Lengths
import DatagramHello.Proofs.Hello.Grammar
import DatagramHello.Proofs.Handshake.Framing
import DatagramHello.Proofs.Handshake.Refused
import DatagramHello.Proofs.Extension.Supported
import DatagramHello.Proofs.Cookie.Received
import DatagramHello.Proofs.Hello.Lookup
import DatagramHello.Proofs.Handshake.Header
import DatagramHello.Proofs.Hello.Token
import DatagramHello.Proofs.Extension.Capture
import DatagramHello.Proofs.Handshake.Logs
import DatagramHello.Proofs.Probe
import DatagramHello.Proofs.Exchange.Steps
