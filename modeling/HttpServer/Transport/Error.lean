/-!
# Failures of the transport under a connection
-/

namespace HttpServer

/-- Why bytes could not be read or written. -/
inductive TransportError where
  /-- The stream ended where more bytes were due. -/
  | endOfStream
  | reset
  | timedOut
  | aborted
  | brokenPipe
  | refused
  | denied
  /-- Nothing has arrived yet, but more may come. -/
  | wouldBlock
  | other
  deriving DecidableEq, Repr

namespace TransportError

/-- What the failure says. -/
def message : TransportError → String
  | .endOfStream => "unexpected end of file"
  | .reset => "connection reset"
  | .timedOut => "timed out"
  | .aborted => "connection aborted"
  | .brokenPipe => "broken pipe"
  | .refused => "connection refused"
  | .denied => "permission denied"
  | .wouldBlock => "operation would block"
  | .other => "other error"

/-- Whether the failure only says that the peer went away. -/
def isPeerGone : TransportError → Bool
  | .endOfStream | .reset | .timedOut | .aborted | .brokenPipe => true
  | .refused | .denied | .wouldBlock | .other => false

end TransportError
end HttpServer
