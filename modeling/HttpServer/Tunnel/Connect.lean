import HttpServer.Reply
import HttpServer.Tunnel
import HttpServer.Tunnel.Relay

/-!
# Answering `CONNECT`

The place that a request asks for is dialled.  If it can be reached, the connection is taken over and bytes
are relayed both ways; if not, the peer is told so.
-/

namespace HttpServer.Tunnel

/-- A place that can be reached: what it sends back for the bytes that it is sent. -/
abbrev Remote := Bytes → Bytes

/-- How places are reached by their address. -/
abbrev Dialer := String → Option Remote

/-- How a source ends, if it does. -/
def endingOf (s : Inbound) : Option StreamEnd :=
  if s.ending = .failed .wouldBlock then none else some s.ending

/-- What failed a flow, if it was a failure that stopped it. -/
def failureOf (f : Flow) : Option TransportError :=
  match f.stopped with
  | some (.failed e) => some e
  | some .closed => none
  | none => some .wouldBlock

/-- Relay a connection to a place: what the client has sent goes there, what comes back goes to the client,
and then the end of the client's stream ends the relay. -/
def relayTo (remote : Remote) : Hijacker := fun stream =>
  let sending : Relay :=
    { fromClient := { ready := stream.remaining }, fromRemote := { sink := stream.outbound } }
  let sent := sending.settle
  let answered := (sent.updateFlow .remote fun f =>
    { f with ready := remote (sent.delivered .remote) }).settle
  let ended := (answered.updateFlow .client fun f => { f with ending := endingOf stream.inbound }).settle
  ({ buffered := [], inbound := { stream.inbound with chunks := [] }, outbound := ended.fromRemote.sink },
    failureOf ended.fromClient)

/-- Answer a request that wants to be connected. -/
def connect (dial : Dialer) (r : Request) : Reply :=
  match destination r with
  | .error e => .ofError (.upgrade e)
  | .ok address =>
    match dial address with
    | none => .ofError (.upgrade (.tunnelDial address))
    | some remote => .hijack (Response.ofStatus .ok) (relayTo remote)

end HttpServer.Tunnel
