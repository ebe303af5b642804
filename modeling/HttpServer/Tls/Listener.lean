import HttpServer.Session
import HttpServer.Tls.Opening

/-!
# TLS listeners

A peer that speaks in the clear is answered in the clear.  Behind a handshake the connection goes to the
handler of the protocol that was settled on, or becomes a session if that protocol has none.  The encryption
itself lies below: the bytes here are those inside of it.
-/

namespace HttpServer

/-- A listener that speaks TLS. -/
structure TlsListener where
  setting : Setting
  /-- Protocols with a handler of their own. -/
  protocols : List (String × Hijacker) := []

/-- What comes of a connection. -/
inductive TlsOutcome where
  /-- Nothing arrived. -/
  | silent
  /-- An answer in the clear. -/
  | plaintext (answer : Bytes)
  /-- The handshake failed. -/
  | failed (e : TlsError)
  | served (protocol : Option String) (calls : List Request) (output : Bytes)
  deriving DecidableEq, Repr

namespace TlsListener

/-- The protocols that a listener speaks. -/
def spoken (l : TlsListener) : List String :=
  spokenProtocols (l.protocols.map (·.1))

/-- What comes of a connection whose handshake offers some protocols, with the bytes inside the encryption. -/
def serveEncrypted (l : TlsListener) (offered : List String) (inbound : Inbound) : TlsOutcome :=
  match settleProtocol l.spoken offered with
  | .error e => .failed e
  | .ok settled =>
    match settled.bind fun p => l.protocols.lookup p with
    | some handler => .served settled [] (handler { inbound }).1.outbound.written
    | none =>
      let r := Session.serve l.setting inbound
      .served settled r.2.calls (Session.output r)

/-- What comes of a connection whose peer does not encrypt. -/
def servePlain (arrived : Bytes) : TlsOutcome :=
  match Opening.of arrived with
  | .silent => .silent
  | .plaintext => .plaintext (Utf8.ofText plaintextAnswer)
  | .handshake => .failed (.reported "the handshake cannot be read")

end TlsListener
end HttpServer
