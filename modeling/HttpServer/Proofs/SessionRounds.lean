import HttpServer.Proofs.Delivery
import HttpServer.Proofs.ReadFailures
import HttpServer.Proofs.RequestSequence
import HttpServer.Session

/-!
# Rounds of a session

A session goes round and round: it waits for a request, reads it, calls the application, and writes the reply.  What
one round can do is said here once.

* `Awaited` — all that waiting for the next request can come to, in terms of the requests that are still on the
  connection (`Connection.readAll`);
* `Answered` — all that calling the application and writing its reply can come to;
* `Reached` — the sessions that stand between two rounds of a connection that is served.

`awaited_nextRequest` and `answered_answer` say that there are no other cases.
-/

namespace HttpServer

/-! ## Streams -/

theorem Outbound.write_of_open {s : Outbound} (h : s.failure = none) (bs : Bytes) :
    ∃ s', s.write bs = .ok s' ∧ s'.written = s.written ++ bs ∧ s'.failure = none := by
  refine ⟨{ s with writes := bs :: s.writes }, by simp [write, h], ?_, h⟩
  simp [written]

namespace Connection

theorem readAll_of_remaining_nil {limits : Limits} {c : Connection} (h : c.remaining = []) :
    c.readAll limits = ([], .network c.inbound.ending.failure) := by
  have hOutcome := outcome_readRequest limits c
  have hTake : takeRequest limits c.inbound.ending c.remaining = .error (.network c.inbound.ending.failure) := by
    rw [h]
    rfl
  rcases hRead : c.readRequest limits with ⟨e | r, c'⟩
  · rw [hRead, hTake] at hOutcome
    simp only [outcome, Except.error.injEq] at hOutcome
    rw [readAll_of_error hRead, hOutcome]
  · rw [hRead, hTake] at hOutcome
    simp [outcome] at hOutcome

end Connection

/-! ## Waiting for a request -/

/-- A request as it is handed to the application: it carries the address of the peer. -/
def Setting.received (setting : Setting) (r : Request) : Request :=
  { r with remoteAddr := setting.peer }

/-- The error that an HTTP/2 preface is answered with. -/
def prefaceError : Error :=
  .unsupported (.protocolVersion 2 0)

namespace Session

/-- What waiting for the next request can come to. -/
inductive Awaited (setting : Setting) (s : Session) : Except SessionEnd Request → Session → Prop
  /-- The server shuts down, and the connection is not looked at. -/
  | stopping (hStop : setting.stopsBefore s.exchanges.length = true) : Awaited setting s (.error .done) s
  /-- There are no more bytes. -/
  | silent {stop : SessionEnd} {c : Connection} (cause : TransportError)
      (hAll : s.connection.readAll setting.config.limits = ([], .network cause)) :
      Awaited setting s (.error stop) { s with connection := c }
  /-- There are bytes, but they are no request. -/
  | refused {c : Connection} {e : Error} {s' : Session} (hAll : s.connection.readAll setting.config.limits = ([], e))
      (hFailure : e.isReadFailure = true) (hSession : s' = { s with connection := c }.reject e) :
      Awaited setting s (.error (.unreadable e)) s'
  /-- The next request is the preface of an HTTP/2 connection. -/
  | preface {c : Connection} {r : Request} {rest : List (Request × Bytes)} {e : Error} {s' : Session}
      (hAll : s.connection.readAll setting.config.limits = ((r, c.remaining) :: rest, e))
      (hPreface : r.isHttp2Preface = true) (hSession : s' = { s with connection := c }.reject prefaceError) :
      Awaited setting s (.error (.unreadable prefaceError)) s'
  /-- There is a request, and what was behind it on the connection still is. -/
  | request {c : Connection} {r : Request}
      (hAll : s.connection.readAll setting.config.limits =
        ((r, c.remaining) :: (c.readAll setting.config.limits).1, (c.readAll setting.config.limits).2))
      (hPreface : r.isHttp2Preface = false) (hSpeaks : r.method ≠ .pri ∧ r.version.major = 1) :
      Awaited setting s (.ok (setting.received r)) { s with connection := c }

theorem awaited_nextRequest (setting : Setting) (s : Session) :
    Awaited setting s (s.nextRequest setting).1 (s.nextRequest setting).2 := by
  unfold nextRequest
  by_cases hStop : setting.stopsBefore s.exchanges.length = true
  · rw [if_pos hStop]
    exact .stopping hStop
  rw [if_neg hStop]
  rcases s.connection.waitReadable_cases with
    ⟨c, hWait, -, hRemaining, hEnding⟩ | ⟨c, hWait, hEmpty, -⟩ | ⟨e, c, hWait, hEmpty, -⟩
  · -- Waiting has changed nothing about the requests that are still to come.
    have hSame : c.readAll setting.config.limits = s.connection.readAll setting.config.limits :=
      Connection.readAll_eq_of_remaining_eq hRemaining hEnding
    rw [hWait]
    dsimp only
    rcases hRead : c.readRequest setting.config.limits with ⟨e | r, c'⟩
    · have hAll := Connection.readAll_of_error hRead
      exact .refused (by rw [← hSame, hAll]) (Connection.isReadFailure_of_readRequest hRead) rfl
    · have hAll := Connection.readAll_of_request hRead
      dsimp only
      cases hPreface : r.isHttp2Preface with
      | true => exact .preface (by rw [← hSame, hAll]) hPreface rfl
      | false =>
        have hSpeaks := (Connection.speaks_of_readRequest hRead).resolve_left (by simp [hPreface])
        exact .request (by rw [← hSame, hAll]) hPreface hSpeaks
  · rw [hWait]
    exact .silent _ (Connection.readAll_of_remaining_nil hEmpty)
  · rw [hWait]
    exact .silent _ (Connection.readAll_of_remaining_nil hEmpty)

theorem awaited_of_nextRequest {setting : Setting} {s s' : Session} {x : Except SessionEnd Request}
    (h : s.nextRequest setting = (x, s')) : Awaited setting s x s' := by
  have hAwaited := awaited_nextRequest setting s
  rw [h] at hAwaited
  exact hAwaited

theorem outbound_of_nextRequest {setting : Setting} {s s' : Session} {r : Request}
    (h : s.nextRequest setting = (.ok r, s')) : s'.outbound = s.outbound := by
  cases awaited_of_nextRequest h with
  | request => rfl

end Session

/-! ## Answering it -/

namespace Session

/-- The session once the application was called. -/
def called (s : Session) (r : Request) : Session :=
  { s with calls := s.calls ++ [r] }

/-- The session once the reply was written. -/
def completed (s : Session) (r : Request) (d : Delivery) (head : Bytes) (outbound : Outbound) : Session :=
  { s.called r with
    outbound
    exchanges := s.exchanges ++ [{ request := r, status := d.status, head, body := d.body, follow := d.follow }] }

/-- A reply that was written whole: its head has a text, its body is as long as was declared, and the stream has
taken both. -/
structure Delivered (d : Delivery) (s : Session) (head : Bytes) (outbound : Outbound) : Prop where
  text : d.head? = some head
  complete : d.isComplete = true
  write : s.outbound.write (head ++ d.body) = .ok outbound

/-- What answering a request can come to. -/
inductive Answered (setting : Setting) (r : Request) (s : Session) : Option SessionEnd → Session → Prop
  /-- The application failed. -/
  | faulted {message : String} (hCall : setting.handler r = .error message) :
      Answered setting r s (some (.faulted message)) (s.called r)
  /-- The head of the reply has no text. -/
  | headless {reply : Reply} (hCall : setting.handler r = .ok reply)
      (hHead : (setting.delivery s.exchanges.length r reply).head? = none) :
      Answered setting r s (some (.unwritable none)) (s.called r)
  /-- The stream has not taken the reply. -/
  | unwritten {reply : Reply} {bytes : Bytes} {cause : TransportError} (hCall : setting.handler r = .ok reply)
      (hWrite : s.outbound.write bytes = .error cause) :
      Answered setting r s (some (.unwritable (some cause))) (s.called r)
  /-- The body has ended before it was as long as was declared. -/
  | cut {reply : Reply} {head : Bytes} {outbound : Outbound} (hCall : setting.handler r = .ok reply)
      (hHead : (setting.delivery s.exchanges.length r reply).head? = some head)
      (hWrite : s.outbound.write (head ++ (setting.delivery s.exchanges.length r reply).body) = .ok outbound)
      (hBody : (setting.delivery s.exchanges.length r reply).isComplete = false) :
      Answered setting r s (some (.unwritable (some .endOfStream))) { s.called r with outbound }
  /-- The reply was written, and the connection was taken over. -/
  | takenOver {response : Response} {hijacker : Hijacker} {head : Bytes} {outbound : Outbound}
      (hCall : setting.handler r = .ok (.hijack response hijacker))
      (hDelivered : Delivered (setting.delivery s.exchanges.length r (.hijack response hijacker)) s head outbound)
      {s' : Session}
      (hSession : s' =
        s.completed r (setting.delivery s.exchanges.length r (.hijack response hijacker)) head outbound) :
      Answered setting r s (some (.takenOver (hijacker s'.toUpgraded).1 (hijacker s'.toUpgraded).2)) s'
  /-- The reply was written, and the connection is closed behind it. -/
  | closed {response : Response} {head : Bytes} {outbound : Outbound}
      (hCall : setting.handler r = .ok (.respond response))
      (hDelivered : Delivered (setting.delivery s.exchanges.length r (.respond response)) s head outbound)
      (hFollow : (setting.delivery s.exchanges.length r (.respond response)).follow ≠ .nextRequest) :
      Answered setting r s (some .closed)
        (s.completed r (setting.delivery s.exchanges.length r (.respond response)) head outbound)
  /-- The reply was written, and the session goes on. -/
  | goesOn {response : Response} {head : Bytes} {outbound : Outbound}
      (hCall : setting.handler r = .ok (.respond response))
      (hDelivered : Delivered (setting.delivery s.exchanges.length r (.respond response)) s head outbound)
      (hFollow : (setting.delivery s.exchanges.length r (.respond response)).follow = .nextRequest) :
      Answered setting r s none
        (s.completed r (setting.delivery s.exchanges.length r (.respond response)) head outbound)

/-- What writing a delivery can come to: the head has no text, the stream does not take the bytes, the body is too
short, or all is well. -/
theorem write_cases (r : Request) (d : Delivery) (s : Session) :
    (d.head? = none ∧ s.write r d = (some (.unwritable none), s)) ∨
      ∃ head, d.head? = some head ∧
        ((∃ cause, s.outbound.write (head ++ d.body) = .error cause ∧
            s.write r d = (some (.unwritable (some cause)), s)) ∨
          ∃ outbound, s.outbound.write (head ++ d.body) = .ok outbound ∧
            ((d.isComplete = false ∧
                s.write r d = (some (.unwritable (some .endOfStream)), { s with outbound })) ∨
              (d.isComplete = true ∧
                s.write r d = (none, { s with outbound, exchanges := s.exchanges ++
                  [{ request := r, status := d.status, head, body := d.body, follow := d.follow }] })))) := by
  unfold write Delivery.head?
  cases hHead : encodeHead? d.version d.status d.headers with
  | none => exact .inl ⟨rfl, rfl⟩
  | some head =>
    refine .inr ⟨head, rfl, ?_⟩
    dsimp only
    cases hWrite : s.outbound.write (head ++ d.body) with
    | error cause => exact .inl ⟨cause, rfl, rfl⟩
    | ok outbound =>
      refine .inr ⟨outbound, rfl, ?_⟩
      cases hBody : d.isComplete with
      | false => exact .inl ⟨rfl, rfl⟩
      | true => exact .inr ⟨rfl, rfl⟩

theorem answered_answer (setting : Setting) (r : Request) (s : Session) :
    Answered setting r s (s.answer setting r).1 (s.answer setting r).2 := by
  unfold answer
  dsimp only
  cases hCall : setting.handler r with
  | error message => exact .faulted hCall
  | ok reply =>
    dsimp only
    have hCases := write_cases r (setting.delivery s.exchanges.length r reply) (s.called r)
    simp only [Setting.delivery, called] at hCases
    rcases hCases with
      ⟨hHead, hResult⟩ | ⟨head, hHead, ⟨cause, hWrite, hResult⟩ |
        ⟨outbound, hWrite, ⟨hBody, hResult⟩ | ⟨hBody, hResult⟩⟩⟩
    all_goals rw [hResult]
    · exact .headless hCall hHead
    · exact .unwritten hCall hWrite
    · exact .cut hCall hHead hWrite hBody
    · -- Only a plain reply with the next request behind it lets the session go on.
      cases reply with
      | hijack response hijacker => exact .takenOver hCall ⟨hHead, hBody, hWrite⟩ rfl
      | respond response =>
        dsimp only
        split
        · rename_i hReply
          cases hReply
        · rename_i hFollow
          exact .goesOn hCall ⟨hHead, hBody, hWrite⟩ hFollow
        · rename_i hFollow
          exact .closed hCall ⟨hHead, hBody, hWrite⟩ hFollow

theorem answered_of_answer {setting : Setting} {r : Request} {s s' : Session} {stop : Option SessionEnd}
    (h : s.answer setting r = (stop, s')) : Answered setting r s stop s' := by
  have hAnswered := answered_answer setting r s
  rw [h] at hAnswered
  exact hAnswered

/-! ## From round to round -/

/-- The sessions that stand between two rounds when a connection is served: nothing has been read yet, or a round was
gone through and the next request will be waited for. -/
inductive Reached (setting : Setting) (inbound : Inbound) : Session → Prop
  | start : Reached setting inbound (Session.start setting inbound)
  | next {s s₁ s₂ : Session} {r : Request} (h : Reached setting inbound s)
      (hNext : s.nextRequest setting = (.ok r, s₁)) (hAnswer : s₁.answer setting r = (none, s₂)) :
      Reached setting inbound s₂

/-- They are the sessions that serving the connection goes through. -/
theorem serve_of_reached {setting : Setting} {inbound : Inbound} {s : Session} (h : Reached setting inbound s) :
    Session.serve setting inbound = run setting s := by
  induction h with
  | start => rfl
  | next h hNext hAnswer ih =>
    rw [ih, run]
    split
    · rename_i hStop
      simp [hNext] at hStop
    · rename_i hRead
      rw [hNext] at hRead
      simp only [Prod.mk.injEq, Except.ok.injEq] at hRead
      obtain ⟨rfl, rfl⟩ := hRead
      split <;> simp_all

/-- One round of a connection that is served: the request `r` was read, the session `s` gets the reply to it from the
application, and answering it comes to `stop` and `s'`. -/
structure Round (setting : Setting) (inbound : Inbound) (r : Request) (reply : Reply) (stop : Option SessionEnd)
    (s s' : Session) : Prop where
  reached : ∃ s₀, Reached setting inbound s₀ ∧ s₀.nextRequest setting = (.ok r, s)
  call : setting.handler r = .ok reply
  answer : s.answer setting r = (stop, s')

end Session
end HttpServer
