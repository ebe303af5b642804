import HttpServer.Tls.Identity

/-!
# How a connection to a TLS listener opens

The first byte tells what the peer speaks.  A handshake begins with the number of its record kind; a letter is
the beginning of a request in the clear, and is answered in the clear.  A handshake then settles which
protocol is spoken.
-/

namespace HttpServer

/-- The first byte of a handshake. -/
def handshakeRecord : UInt8 := 0x16

/-- What a peer that connects to a TLS listener does. -/
inductive Opening where
  /-- Nothing arrives. -/
  | silent
  /-- A request in the clear. -/
  | plaintext
  | handshake
  deriving DecidableEq, Repr

/-- Tell by the first byte. -/
def Opening.of (arrived : Bytes) : Opening :=
  match arrived with
  | [] => .silent
  | b :: _ => if b ≠ handshakeRecord ∧ (Char.ofNat b.toNat).isAlpha then .plaintext else .handshake

/-- What a peer reads that speaks in the clear to a TLS listener. -/
def plaintextAnswer : String :=
  "HTTP/1.0 400 Bad Request\r\n\r\nClient sent an HTTP request to an HTTPS server.\n"

/-- The protocols that a listener speaks if `extra` ones have a handler of their own. -/
def spokenProtocols (extra : List String) : List String :=
  extra.foldl (fun spoken p => if spoken.contains p then spoken else spoken ++ [p]) [httpProtocol]

/-- The protocol that both sides settle on: the one that the listener likes best among those that the peer
offers.  A peer that offers none gets no answer to it, and one that offers none of the listener's is turned
away. -/
def settleProtocol (spoken offered : List String) : Except TlsError (Option String) :=
  if offered.isEmpty then .ok none
  else
    match spoken.find? (offered.contains ·) with
    | some p => .ok (some p)
    | none => .error (.reported "peer doesn't support any known protocol")

end HttpServer
