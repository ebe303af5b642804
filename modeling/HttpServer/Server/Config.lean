import HttpServer.Request.Reader

/-!
# Settings of a server

Deadlines are in milliseconds; one that is absent never passes.
-/

namespace HttpServer

/-- Settings of a server. -/
structure ServerConfig where
  /-- The `Server` field of responses that have none; absent, none is added. -/
  serverName : Option String := some "tern"
  /-- For reading a head and a body. -/
  readTimeout : Option Nat := none
  /-- For writing a head and a body. -/
  writeTimeout : Option Nat := none
  /-- For waiting between two requests. -/
  idleTimeout : Option Nat := none
  limits : Limits := {}
  /-- Bytes that one read asks for. -/
  readBufferSize : Nat := 4096
  deriving DecidableEq, Repr

namespace ServerConfig

/-- The deadline of a TLS handshake, which both reads and writes: the sooner of the two. -/
def handshakeTimeout (c : ServerConfig) : Option Nat :=
  match c.readTimeout, c.writeTimeout with
  | some r, some w => some (min r w)
  | some r, none => some r
  | none, w => w

/-- The deadline for the next request: without one of its own, that of reading. -/
def keepAliveTimeout (c : ServerConfig) : Option Nat :=
  c.idleTimeout <|> c.readTimeout

end ServerConfig
end HttpServer
