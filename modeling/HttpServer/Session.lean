import HttpServer.Session.Delivery

/-!
# Sessions — one connection from its first request to its end

A session reads a request, hands it to the application, writes the reply, and starts again.  It ends when the
peer has nothing more to say, when a request cannot be read, when the application fails, when the reply cannot
be written, when the peer could not tell where the reply ends, when somebody wants it closed, or when the
connection is taken over.

Every round that goes on has taken at least one byte off the connection, so there are no more rounds than
bytes.  A deadline that passes is a stream that fails with `TransportError.timedOut`.
-/

namespace HttpServer

/-- What a session works with. -/
structure Setting where
  config : ServerConfig := {}
  handler : Handler
  /-- Address and port of the peer. -/
  peer : Option String := none
  /-- The date of the response with this number, in seconds since the beginning of 1970. -/
  clock : Nat → Int := fun _ => 0
  /-- Whether the server is seen to shut down before the request with this number. -/
  stopsBefore : Nat → Bool := fun _ => false
  /-- Bytes for which the buffer has more room than a read asks for, at each read. -/
  slack : List Nat := []

/-- A request with the response that was written for it. -/
structure Exchange where
  request : Request
  status : Status
  head : Bytes
  body : Bytes
  follow : Follow
  deriving DecidableEq, Repr

/-- A connection that is being served. -/
structure Session where
  connection : Connection
  outbound : Outbound := {}
  /-- The requests that the application was called with, the first one first. -/
  calls : List Request := []
  /-- The exchanges that were completed. -/
  exchanges : List Exchange := []
  deriving DecidableEq, Repr

/-- How a session ended. -/
inductive SessionEnd where
  /-- The peer has ended the stream, or the server shuts down. -/
  | done
  /-- The stream failed before anything came of the next request. -/
  | interrupted (cause : TransportError)
  /-- A request could not be read.  The peer was told so if there is something to tell. -/
  | unreadable (e : Error)
  /-- The application failed. -/
  | faulted (message : String)
  /-- The response could not be written; without a cause, its head has no text. -/
  | unwritable (cause : Option TransportError)
  /-- The response closed the connection. -/
  | closed
  /-- The connection was taken over. -/
  | takenOver (stream : Upgraded) (failure : Option TransportError)
  deriving DecidableEq, Repr

namespace Session

/-- Tell the peer why its request was refused, if there is something to tell. -/
def reject (e : Error) (s : Session) : Session :=
  match e.cannedResponse? with
  | none => s
  | some canned =>
    match s.outbound.write canned with
    | .ok outbound => { s with outbound }
    | .error _ => s

/-- Wait for a request and read it; if there is none, the session ends, and a peer that is at fault is told
so. -/
def nextRequest (setting : Setting) (s : Session) : Except SessionEnd Request × Session :=
  if setting.stopsBefore s.exchanges.length then (.error .done, s)
  else
    match s.connection.waitReadable with
    | (.error e, connection) => (.error (.interrupted e), { s with connection })
    | (.ok false, connection) => (.error .done, { s with connection })
    | (.ok true, connection) =>
      match connection.readRequest setting.config.limits with
      | (.error e, connection) => (.error (.unreadable e), { s with connection }.reject e)
      | (.ok r, connection) =>
        if r.isHttp2Preface then
          let e : Error := .unsupported (.protocolVersion 2 0)
          (.error (.unreadable e), { s with connection }.reject e)
        else (.ok { r with remoteAddr := setting.peer }, { s with connection })

/-- Write a delivery; the answer is why it could not be written whole. -/
def write (request : Request) (d : Delivery) (s : Session) : Option SessionEnd × Session :=
  match encodeHead? d.version d.status d.headers with
  | none => (some (.unwritable none), s)
  | some head =>
    match s.outbound.write (head ++ d.body) with
    | .error e => (some (.unwritable (some e)), s)
    | .ok outbound =>
      let exchange : Exchange :=
        { request, status := d.status, head, body := d.body, follow := d.follow }
      if d.isComplete then (none, { s with outbound, exchanges := s.exchanges ++ [exchange] })
      else (some (.unwritable (some .endOfStream)), { s with outbound })

/-- The stream of a session that is taken over. -/
def toUpgraded (s : Session) : Upgraded :=
  { s.connection.toUpgraded with outbound := s.outbound }

/-- Answer one request; the answer is how the session ended, if it did. -/
def answer (setting : Setting) (r : Request) (s : Session) : Option SessionEnd × Session :=
  let s := { s with calls := s.calls ++ [r] }
  match setting.handler r with
  | .error message => (some (.faulted message), s)
  | .ok reply =>
    let date := (dateText? (setting.clock s.exchanges.length)).getD ""
    match s.write r (Delivery.of setting.config date r reply) with
    | (some stop, s) => (some stop, s)
    | (none, s) =>
      match reply, (Delivery.of setting.config date r reply).follow with
      | .hijack _ hijacker, _ =>
        let (stream, failure) := hijacker s.toUpgraded
        (some (.takenOver stream failure), s)
      | .respond _, .nextRequest => (none, s)
      | .respond _, _ => (some .closed, s)

theorem connection_of_write {r : Request} {d : Delivery} {s s' : Session} {stop : Option SessionEnd}
    (h : s.write r d = (stop, s')) : s'.connection = s.connection := by
  unfold write at h
  split at h
  · simp only [Prod.mk.injEq] at h
    rw [← h.2]
  · split at h
    · simp only [Prod.mk.injEq] at h
      rw [← h.2]
    · dsimp only at h
      split at h <;> (simp only [Prod.mk.injEq] at h; rw [← h.2])

theorem connection_of_answer {setting : Setting} {r : Request} {s s' : Session} {stop : Option SessionEnd}
    (h : s.answer setting r = (stop, s')) : s'.connection = s.connection := by
  unfold answer at h
  dsimp only at h
  split at h
  · simp only [Prod.mk.injEq] at h
    rw [← h.2]
  · split at h
    · rename_i hWrite
      simp only [Prod.mk.injEq] at h
      rw [← h.2, connection_of_write hWrite]
    · rename_i hWrite
      split at h <;> (simp only [Prod.mk.injEq] at h; rw [← h.2, connection_of_write hWrite])

theorem length_of_nextRequest {setting : Setting} {s s' : Session} {r : Request}
    (h : s.nextRequest setting = (.ok r, s')) :
    s'.connection.remaining.length < s.connection.remaining.length := by
  unfold nextRequest at h
  split at h
  · simp at h
  · split at h
    · simp at h
    · simp at h
    · rename_i c₁ hWait
      have hWaited : c₁.remaining = s.connection.remaining := Connection.remaining_of_waitReadable hWait
      split at h
      · simp at h
      · rename_i request c₂ hRead
        obtain ⟨b, taken, hTaken⟩ := Connection.remaining_of_readRequest hRead
        split at h
        · simp at h
        · simp only [Prod.mk.injEq] at h
          rw [← h.2, ← hWaited, hTaken]
          simp only [List.length_append, List.length_cons]
          omega

/-- Serve a connection to its end. -/
def run (setting : Setting) (s : Session) : SessionEnd × Session :=
  match _ : s.nextRequest setting with
  | (.error stop, s) => (stop, s)
  | (.ok r, s₁) =>
    match _ : s₁.answer setting r with
    | (some stop, s) => (stop, s)
    | (none, s) => run setting s
termination_by s.connection.remaining.length
decreasing_by
  have hRead := length_of_nextRequest (by assumption)
  have hAnswer : s.connection = s₁.connection := connection_of_answer (by assumption)
  rw [hAnswer]
  exact hRead

/-- A connection on which nothing has been read yet. -/
def start (setting : Setting) (inbound : Inbound) : Session :=
  { connection := { inbound, readSize := setting.config.readBufferSize, slack := setting.slack } }

/-- Serve what a peer sends. -/
def serve (setting : Setting) (inbound : Inbound) : SessionEnd × Session :=
  run setting (start setting inbound)

/-- Everything that was written to the peer, by the session and by whoever took the connection over. -/
def output : SessionEnd × Session → Bytes
  | (.takenOver stream _, _) => stream.outbound.written
  | (_, s) => s.outbound.written

end Session
end HttpServer
