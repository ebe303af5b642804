import HttpServer.Proofs.SessionRounds
import Mathlib.Order.Bounds.Basic

/-!
# The account of a session

What a session does is settled by the requests on its connection and by the application.  It calls the application with
the first of the requests, one after the other, and writes their replies one behind the other.  The first request with
a reason to end (`Setting.EndsAfter`) is the last that is answered.  If there is no such request, all are answered up to
an HTTP/2 preface or to the failure of reading, and the peer is told about these (`Setting.Farewell`).

`serve_account` says so of every connection, every application and every way in which the bytes arrive.
-/

namespace HttpServer

/-- An application whose streams hold at least as many bytes as were declared for them. -/
def Handler.KeepsSizes (handler : Handler) : Prop :=
  ∀ r reply content size, handler r = .ok reply → reply.response.body = .stream content (some size) →
    size ≤ content.length

namespace Setting

variable (setting : Setting)

/-! ## The requests -/

/-- The requests on a connection on which nothing has been read yet, as the application would get them. -/
def requests (inbound : Inbound) : List Request :=
  ((Connection.fresh setting.config.readBufferSize inbound setting.slack).readAll setting.config.limits).1.map
    fun read => setting.received read.1

/-- Why there are no more requests on the connection. -/
def failure (inbound : Inbound) : Error :=
  ((Connection.fresh setting.config.readBufferSize inbound setting.slack).readAll setting.config.limits).2

/-- The requests in front of an HTTP/2 preface. -/
def answerable (requests : List Request) : List Request :=
  requests.takeWhile (!·.isHttp2Preface)

/-- Why no request is answered behind this one. -/
inductive EndsAfter (r : Request) : Prop
  /-- The client asks for the connection to be closed. -/
  | asked (h : r.asksToClose = true)
  /-- The application fails. -/
  | panicked {message : String} (hCall : setting.handler r = .error message)
  /-- The reply has a cookie without a text, and the session fails where it writes the head. -/
  | headless {reply : Reply} (hCall : setting.handler r = .ok reply)
      (hCookies : reply.response.headers.cookieLines? = none)
  /-- The connection is taken over. -/
  | hijacked {reply : Reply} (hCall : setting.handler r = .ok reply) (hHijack : reply.isHijack = true)
  /-- Only the end of the connection ends the body. -/
  | unframed {reply : Reply} (hCall : setting.handler r = .ok reply) (hUnframed : reply.response.isUnframed = true)
  /-- The status promises a body, and there is none. -/
  | bodiless {reply : Reply} (hCall : setting.handler r = .ok reply) (hMethod : r.method ≠ .head)
      (hNone : reply.response.body.isNone = true) (hStatus : (reply.response.chosenStatus r.method).hasBody = true)

/-- The first `k` requests end with one behind which no request is answered. -/
def Ended (requests : List Request) (k : Nat) : Prop :=
  ∃ i r, k = i + 1 ∧ requests[i]? = some r ∧ setting.EndsAfter r

/-- The session may end behind the first `k` requests: there is a reason, or these are all that it can answer. -/
def StopsAt (requests : List Request) (k : Nat) : Prop :=
  setting.Ended (answerable requests) k ∨ k = (answerable requests).length

/-! ## The bytes -/

/-- The reply to the request with number `n`: its head, and its body unless only the head was asked for.  A call that
fails has no reply. -/
def replyBytes (n : Nat) (r : Request) : Bytes :=
  match setting.handler r with
  | .error _ => []
  | .ok reply =>
    match (setting.delivery n r reply).head? with
    | none => []
    | some head => head ++ if r.method = .head then [] else reply.response.body.wire.1

/-- The replies to requests that stand one behind the other; the first of them has the number `n`. -/
def repliesFrom (n : Nat) : List Request → Bytes
  | [] => []
  | r :: requests => setting.replyBytes n r ++ repliesFrom (n + 1) requests

/-- What the session writes behind the replies to the first `k` requests. -/
inductive Farewell (requests : List Request) (failure : Error) (k : Nat) : Bytes → Prop
  /-- The last request was the end of it. -/
  | answered (hEnded : setting.Ended requests k) : Farewell requests failure k []
  /-- An HTTP/2 preface is refused. -/
  | preface {r : Request} {canned : Bytes} (hOpen : ¬setting.Ended requests k) (hNext : requests[k]? = some r)
      (hPreface : r.isHttp2Preface = true) (hCanned : prefaceError.cannedResponse? = some canned) :
      Farewell requests failure k canned
  /-- The peer is told what is wrong with its request. -/
  | refused {canned : Bytes} (hOpen : ¬setting.Ended requests k) (hNext : requests[k]? = none)
      (hFailure : ∀ cause, failure ≠ .network cause) (hCanned : failure.cannedResponse? = some canned) :
      Farewell requests failure k canned
  /-- The stream has ended or failed. -/
  | gone {cause : TransportError} (hOpen : ¬setting.Ended requests k) (hNext : requests[k]? = none)
      (hFailure : failure = .network cause) : Farewell requests failure k []

end Setting

/-! ## One reply -/

section Delivery

variable {setting : Setting} {n : Nat} {r : Request} {reply : Reply}

theorem isComplete_of_keepsSizes (hSizes : setting.handler.KeepsSizes) (hCall : setting.handler r = .ok reply) :
    (setting.delivery n r reply).isComplete = true := by
  have hWire : reply.response.body.wire.2 = true := by
    cases hBody : reply.response.body with
    | none | full => rfl
    | stream content size =>
      cases size with
      | none => rfl
      | some size => simpa [Body.wire] using hSizes r reply content size hCall hBody
  rw [isComplete_delivery, hWire, ite_self]

/-- A reply that has a head goes on behind it unless there is a reason to end. -/
theorem follow_delivery_eq_iff {response : Response} (hCall : setting.handler r = .ok (.respond response))
    (hHead : (setting.delivery n r (.respond response)).head? ≠ none) :
    (setting.delivery n r (.respond response)).follow = .nextRequest ↔ ¬setting.EndsAfter r := by
  rw [follow_respond_eq_iff]
  constructor
  · rintro ⟨hFramed, hOpen, hBody⟩ hEnds
    cases hEnds with
    | asked h => simp [h] at hOpen
    | panicked hPanic => simp [hCall] at hPanic
    | headless hReply hCookies =>
      obtain rfl := Except.ok.inj (hCall.symm.trans hReply)
      exact hHead (head?_delivery_eq_none_iff.mpr hCookies)
    | hijacked hReply hHijack =>
      obtain rfl := Except.ok.inj (hCall.symm.trans hReply)
      simp [Reply.isHijack] at hHijack
    | unframed hReply hUnframed =>
      obtain rfl := Except.ok.inj (hCall.symm.trans hReply)
      exact absurd (hFramed.symm.trans hUnframed) (by decide)
    | bodiless hReply hMethod hNone hStatus =>
      obtain rfl := Except.ok.inj (hCall.symm.trans hReply)
      exact hBody ⟨hMethod, hNone, hStatus⟩
  · intro hEnds
    refine ⟨?_, ?_, ?_⟩
    · exact Bool.eq_false_iff.mpr fun h => hEnds (.unframed hCall h)
    · exact Bool.eq_false_iff.mpr fun h => hEnds (.asked h)
    · exact fun h => hEnds (.bodiless hCall h.1 h.2.1 h.2.2)

end Delivery

/-! ## One request more -/

namespace Setting

section Requests

variable {setting : Setting} {r : Request} {requests : List Request} {failure : Error} {k : Nat} {bytes : Bytes}

theorem not_ended_zero : ¬setting.Ended requests 0 := by
  rintro ⟨i, r, hEnd, -⟩
  omega

theorem ended_cons_iff :
    setting.Ended (r :: requests) (k + 1) ↔ k = 0 ∧ setting.EndsAfter r ∨ setting.Ended requests k := by
  constructor
  · rintro ⟨i, last, hCount, hLast, hEnds⟩
    obtain rfl : k = i := by omega
    cases k with
    | zero =>
      simp only [List.getElem?_cons_zero, Option.some.injEq] at hLast
      exact .inl ⟨rfl, hLast ▸ hEnds⟩
    | succ i => exact .inr ⟨i, last, rfl, by simpa using hLast, hEnds⟩
  · rintro (⟨rfl, hEnds⟩ | ⟨i, last, rfl, hLast, hEnds⟩)
    · exact ⟨0, r, rfl, rfl, hEnds⟩
    · exact ⟨i + 1, last, rfl, by simpa using hLast, hEnds⟩

theorem answerable_cons (hPreface : r.isHttp2Preface = false) :
    answerable (r :: requests) = r :: answerable requests := by
  simp [answerable, hPreface]

theorem answerable_of_preface (hPreface : r.isHttp2Preface = true) : answerable (r :: requests) = [] := by
  simp [answerable, hPreface]

theorem isLeast_stopsAt_of_nil (h : answerable requests = []) : IsLeast {k | setting.StopsAt requests k} 0 :=
  ⟨.inr (by simp [h]), fun _ _ => Nat.zero_le _⟩

theorem isLeast_stopsAt_one (hPreface : r.isHttp2Preface = false) (hEnds : setting.EndsAfter r) :
    IsLeast {k | setting.StopsAt (r :: requests) k} 1 := by
  constructor
  · left
    rw [answerable_cons hPreface]
    exact ended_cons_iff.mpr (.inl ⟨rfl, hEnds⟩)
  · rintro k (hEnded | hAll)
    · obtain ⟨i, _, rfl, -⟩ := hEnded
      omega
    · rw [answerable_cons hPreface] at hAll
      simp only [List.length_cons] at hAll
      omega

theorem isLeast_stopsAt_succ (hPreface : r.isHttp2Preface = false) (hOpen : ¬setting.EndsAfter r)
    (hLeast : IsLeast {k | setting.StopsAt requests k} k) :
    IsLeast {k | setting.StopsAt (r :: requests) k} (k + 1) := by
  have hShift : ∀ n, setting.StopsAt (r :: requests) (n + 1) ↔ setting.StopsAt requests n := by
    intro n
    unfold StopsAt
    rw [answerable_cons hPreface, ended_cons_iff]
    simp [hOpen]
  constructor
  · exact (hShift k).mpr hLeast.1
  · rintro n hStops
    cases n with
    | zero =>
      rcases hStops with hEnded | hAll
      · exact absurd hEnded not_ended_zero
      · simp [answerable_cons hPreface] at hAll
    | succ n =>
      have hLower : k ≤ n := hLeast.2 ((hShift n).mp hStops)
      omega

theorem Farewell.succ (hOpen : ¬setting.EndsAfter r) (h : setting.Farewell requests failure k bytes) :
    setting.Farewell (r :: requests) failure (k + 1) bytes := by
  have hEnded : setting.Ended (r :: requests) (k + 1) ↔ setting.Ended requests k := by
    rw [ended_cons_iff]
    simp [hOpen]
  cases h with
  | answered h => exact .answered (hEnded.mpr h)
  | preface h hNext hPreface hCanned =>
    exact .preface (fun h' => h (hEnded.mp h')) (by simpa using hNext) hPreface hCanned
  | refused h hNext hFailure hCanned =>
    exact .refused (fun h' => h (hEnded.mp h')) (by simpa using hNext) hFailure hCanned
  | gone h hNext hFailure => exact .gone (fun h' => h (hEnded.mp h')) (by simpa using hNext) hFailure

end Requests

end Setting

/-! ## The whole session -/

namespace Session

theorem reject_of_canned {s : Session} {e : Error} {canned : Bytes} (hOpen : s.outbound.failure = none)
    (hCanned : e.cannedResponse? = some canned) :
    (s.reject e).calls = s.calls ∧ (s.reject e).outbound.written = s.outbound.written ++ canned := by
  obtain ⟨outbound, hWrite, hWritten, -⟩ := Outbound.write_of_open hOpen canned
  simp only [reject, hCanned, hWrite]
  exact ⟨trivial, hWritten⟩

theorem reject_of_silent {s : Session} {e : Error} (hCanned : e.cannedResponse? = none) : s.reject e = s := by
  simp only [reject, hCanned]

/-- How a session `s`, with some requests still on its connection, becomes the session `s'` when it is served to its
end: it calls the application with the first `k` of them, writes their replies, and says farewell. -/
structure Account (setting : Setting) (s : Session) (requests : List Request) (failure : Error) (k : Nat)
    (told : Bytes) (s' : Session) : Prop where
  least : IsLeast {k | setting.StopsAt requests k} k
  calls : s'.calls = s.calls ++ requests.take k
  spoken : ∀ r ∈ requests.take k, r.method ≠ .pri ∧ r.version.major = 1
  farewell : setting.Farewell requests failure k told
  written : s'.outbound.written =
    s.outbound.written ++ (setting.repliesFrom s.exchanges.length (requests.take k) ++ told)

section Run

variable {setting : Setting} {s s₁ s₂ : Session} {r : Request} {failure : Error} {requests : List Request}

theorem account_of_gone {cause : TransportError} (hFailure : failure = .network cause) {c : Connection} :
    Account setting s [] failure 0 [] { s with connection := c } where
  least := Setting.isLeast_stopsAt_of_nil rfl
  calls := by simp
  spoken := by simp
  farewell := .gone Setting.not_ended_zero rfl hFailure
  written := by simp [Setting.repliesFrom]

/-- Nothing more is answered, and the peer is told why. -/
theorem account_of_told {e : Error} {canned : Bytes} {c : Connection} (hOpen : s.outbound.failure = none)
    (hNone : Setting.answerable requests = []) (hCanned : e.cannedResponse? = some canned)
    (hFarewell : setting.Farewell requests failure 0 canned) :
    Account setting s requests failure 0 canned ({ s with connection := c }.reject e) := by
  obtain ⟨hCalls, hWritten⟩ := reject_of_canned (s := { s with connection := c }) hOpen hCanned
  exact ⟨Setting.isLeast_stopsAt_of_nil hNone, by simp [hCalls], by simp, hFarewell,
    by simp [hWritten, Setting.repliesFrom]⟩

theorem account_of_stop {stop : SessionEnd} (hStays : setting.stopsBefore = fun _ => false)
    (hOpen : s.outbound.failure = none) (hNext : s.nextRequest setting = (.error stop, s₁)) :
    ∃ told, Account setting s ((s.connection.readAll setting.config.limits).1.map fun read => setting.received read.1)
      (s.connection.readAll setting.config.limits).2 0 told s₁ := by
  cases awaited_of_nextRequest hNext with
  | stopping hStop => simp [hStays] at hStop
  | silent cause hAll =>
    rw [hAll]
    exact ⟨[], account_of_gone rfl⟩
  | refused hAll hFailure hSession =>
    rw [hAll, hSession]
    rcases Error.canned_of_isReadFailure hFailure with ⟨cause, hCause, hSilent⟩ | ⟨canned, hCanned, hCause⟩
    · rw [reject_of_silent hSilent]
      exact ⟨[], account_of_gone hCause⟩
    · exact ⟨canned, account_of_told hOpen rfl hCanned (.refused Setting.not_ended_zero rfl hCause hCanned)⟩
  | preface hAll hPreface hSession =>
    rw [hAll, hSession]
    exact ⟨_, account_of_told hOpen (Setting.answerable_of_preface hPreface) rfl
      (.preface Setting.not_ended_zero rfl hPreface rfl)⟩

theorem replyBytes_of_head {n : Nat} {reply : Reply} {head : Bytes} (hCall : setting.handler r = .ok reply)
    (hHead : (setting.delivery n r reply).head? = some head) :
    setting.replyBytes n r = head ++ (setting.delivery n r reply).body := by
  simp only [Setting.replyBytes, hCall, hHead, body_delivery]

/-- A request with which the session ends has a reason for it, and what there is of a reply was written. -/
theorem last_of_answer {stop : SessionEnd} (hAnswer : s.answer setting r = (some stop, s₁))
    (hSizes : setting.handler.KeepsSizes) (hOpen : s.outbound.failure = none) :
    setting.EndsAfter r ∧ s₁.calls = s.calls ++ [r] ∧
      s₁.outbound.written = s.outbound.written ++ setting.replyBytes s.exchanges.length r := by
  cases answered_of_answer hAnswer with
  | faulted hCall => exact ⟨.panicked hCall, rfl, by simp [called, Setting.replyBytes, hCall]⟩
  | headless hCall hHead =>
    exact ⟨.headless hCall (head?_delivery_eq_none_iff.mp hHead), rfl,
      by simp [called, Setting.replyBytes, hCall, hHead]⟩
  | unwritten hCall hWrite =>
    obtain ⟨outbound, hWrite', -⟩ := Outbound.write_of_open hOpen ‹Bytes›
    simp [hWrite'] at hWrite
  | cut hCall hHead hWrite hBody => simp [isComplete_of_keepsSizes hSizes hCall] at hBody
  | takenOver hCall hDelivered hSession =>
    subst hSession
    refine ⟨.hijacked hCall rfl, rfl, ?_⟩
    rw [replyBytes_of_head hCall hDelivered.text]
    exact Outbound.written_of_write hDelivered.write
  | closed hCall hDelivered hFollow =>
    refine ⟨?_, rfl, ?_⟩
    · by_contra hEnds
      exact hFollow ((follow_delivery_eq_iff hCall (by simp [hDelivered.text])).mpr hEnds)
    · rw [replyBytes_of_head hCall hDelivered.text]
      exact Outbound.written_of_write hDelivered.write

/-- A request behind which the session goes on has no reason to end it, and its reply was written. -/
theorem goesOn_of_answer (hAnswer : s.answer setting r = (none, s₁)) (hOpen : s.outbound.failure = none) :
    ¬setting.EndsAfter r ∧ s₁.calls = s.calls ++ [r] ∧ s₁.exchanges.length = s.exchanges.length + 1 ∧
      s₁.outbound.written = s.outbound.written ++ setting.replyBytes s.exchanges.length r ∧
        s₁.outbound.failure = none := by
  cases answered_of_answer hAnswer with
  | goesOn hCall hDelivered hFollow =>
    obtain ⟨outbound, hWrite, hWritten, hStillOpen⟩ := Outbound.write_of_open hOpen
      (_ ++ (setting.delivery s.exchanges.length r (.respond _)).body)
    obtain rfl := Except.ok.inj (hDelivered.write.symm.trans hWrite)
    refine ⟨(follow_delivery_eq_iff hCall (by simp [hDelivered.text])).mp hFollow, rfl, by simp [completed], ?_,
      hStillOpen⟩
    rw [replyBytes_of_head hCall hDelivered.text]
    exact hWritten

theorem account_of_last {stop : SessionEnd} {c : Connection} (hSizes : setting.handler.KeepsSizes)
    (hOpen : s.outbound.failure = none) (hPreface : r.isHttp2Preface = false)
    (hSpeaks : r.method ≠ .pri ∧ r.version.major = 1)
    (hAnswer : { s with connection := c }.answer setting r = (some stop, s₁)) :
    Account setting s (r :: requests) failure 1 [] s₁ := by
  obtain ⟨hEnds, hCalls, hWritten⟩ := last_of_answer hAnswer hSizes hOpen
  exact ⟨Setting.isLeast_stopsAt_one hPreface hEnds, by simp [hCalls], by simpa using hSpeaks,
    .answered (Setting.ended_cons_iff.mpr (.inl ⟨rfl, hEnds⟩)), by simp [hWritten, Setting.repliesFrom]⟩

/-- One round more in front of an account. -/
theorem Account.cons {c : Connection} {k : Nat} {told : Bytes} (hOpen : s.outbound.failure = none)
    (hPreface : r.isHttp2Preface = false) (hSpeaks : r.method ≠ .pri ∧ r.version.major = 1)
    (hAnswer : { s with connection := c }.answer setting r = (none, s₁))
    (h : Account setting s₁ requests failure k told s₂) :
    Account setting s (r :: requests) failure (k + 1) told s₂ := by
  obtain ⟨hEnds, hCalls, hCount, hWritten, -⟩ := goesOn_of_answer hAnswer hOpen
  exact {
    least := Setting.isLeast_stopsAt_succ hPreface hEnds h.least
    calls := by simp [h.calls, hCalls]
    spoken := by simpa using ⟨hSpeaks, by simpa using h.spoken⟩
    farewell := h.farewell.succ hEnds
    written := by simp [h.written, hWritten, hCount, Setting.repliesFrom, List.append_assoc] }

/-- Every session that is open has its account.  The induction is on the rounds; the requests that are still on the
connection are those behind the one that a round takes off. -/
theorem account_of_run (hStays : setting.stopsBefore = fun _ => false) (hSizes : setting.handler.KeepsSizes)
    (s : Session) (hOpen : s.outbound.failure = none) :
    ∃ k told, Account setting s
      ((s.connection.readAll setting.config.limits).1.map fun read => setting.received read.1)
      (s.connection.readAll setting.config.limits).2 k told (run setting s).2 := by
  fun_induction run setting s with
  | case1 s stop s' hNext => exact ⟨0, account_of_stop hStays hOpen hNext⟩
  | case2 s r s₁ hNext stop s' hAnswer =>
    -- What is left on the connection does not count any more.
    cases awaited_of_nextRequest hNext with
    | request hAll hPreface hSpeaks =>
      rw [hAll]
      exact ⟨1, [], account_of_last hSizes hOpen hPreface hSpeaks hAnswer⟩
  | case3 s r s₁ hNext s₂ hAnswer ih =>
    cases awaited_of_nextRequest hNext with
    | request hAll hPreface hSpeaks =>
      obtain ⟨-, -, -, -, hStillOpen⟩ := goesOn_of_answer hAnswer hOpen
      obtain ⟨k, told, hAccount⟩ := ih hStillOpen
      -- Answering has read nothing, so the account of what follows is about the requests behind this one.
      rw [connection_of_answer hAnswer] at hAccount
      rw [hAll]
      exact ⟨k + 1, told, hAccount.cons hOpen hPreface hSpeaks hAnswer⟩

end Run

/-- **What a session does.**  Let there be no shutdown, an application whose streams are as long as declared, and a peer
that takes what is written.  Then there is a number `k` such that the application was called with the first `k` requests
on the connection, each of them of version 1, and was called with nothing else; the replies to these were written one
behind the other, and behind them what the peer is told at the end; and `k` is the least number of requests with a
reason to end behind them, or there is none and all requests in front of a preface or a failure were answered. -/
theorem serve_account (setting : Setting) (inbound : Inbound) (hStays : setting.stopsBefore = fun _ => false)
    (hSizes : setting.handler.KeepsSizes) :
    ∃ k told,
      IsLeast {k | setting.StopsAt (setting.requests inbound) k} k ∧
      (serve setting inbound).2.calls = (setting.requests inbound).take k ∧
      (∀ r ∈ (serve setting inbound).2.calls, r.method ≠ .pri ∧ r.version.major = 1) ∧
      setting.Farewell (setting.requests inbound) (setting.failure inbound) k told ∧
      (serve setting inbound).2.outbound.written =
        setting.repliesFrom 0 ((setting.requests inbound).take k) ++ told := by
  obtain ⟨k, told, hRun⟩ := account_of_run hStays hSizes (start setting inbound) rfl
  have hAccount : Account setting (start setting inbound) (setting.requests inbound) (setting.failure inbound) k told
      (serve setting inbound).2 := hRun
  have hCalls := hAccount.calls
  refine ⟨k, told, hAccount.least, hCalls, ?_, hAccount.farewell, hAccount.written⟩
  rw [hCalls]
  exact hAccount.spoken

/-- An application that answers with a text of known length. -/
def greeter : Setting where
  handler _ := .ok (.respond (Response.stream (Utf8.ofText "hello") (some 5)))

/-- Two requests and an HTTP/2 preface that come in one piece. -/
def thenPreface : Inbound where
  chunks := [Utf8.ofText "GET /a HTTP/1.1\r\n\r\nHEAD /b HTTP/1.0\r\n\r\nPRI * HTTP/2.0\r\n\r\nSM\r\n\r\n"]

theorem greeter_keepsSizes : greeter.handler.KeepsSizes := by
  intro r reply content size hCall hBody
  obtain rfl := Except.ok.inj hCall
  obtain ⟨rfl, hSize⟩ := Body.stream.inj hBody
  obtain rfl := Option.some.inj hSize
  decide

/-- The two requests are answered, and the preface is refused. -/
theorem serve_account_greeter :
    greeter.stopsBefore = (fun _ => false) ∧ greeter.handler.KeepsSizes ∧
      (serve greeter thenPreface).2.calls.map (·.target) = ["/a", "/b"] ∧
      ∃ k told,
        IsLeast {k | greeter.StopsAt (greeter.requests thenPreface) k} k ∧
        (serve greeter thenPreface).2.calls = (greeter.requests thenPreface).take k ∧
        (∀ r ∈ (serve greeter thenPreface).2.calls, r.method ≠ .pri ∧ r.version.major = 1) ∧
        greeter.Farewell (greeter.requests thenPreface) (greeter.failure thenPreface) k told ∧
        (serve greeter thenPreface).2.outbound.written =
          greeter.repliesFrom 0 ((greeter.requests thenPreface).take k) ++ told :=
  ⟨rfl, greeter_keepsSizes, by decide +kernel, serve_account greeter thenPreface rfl greeter_keepsSizes⟩

/-- A greeting with a cookie whose expiry lies before 1970.  The cookie passes the checks of the store. -/
def undatedGreeting : Response :=
  (Response.text (Utf8.ofText "hello")).withCookie { name := "id", value := "1", expires := some (.ofSeconds (-1)) }

/-- An application that always answers so. -/
def undated : Setting where
  handler _ := .ok (.respond undatedGreeting)

/-- Two requests that do not ask for the end. -/
def askedTwice : Inbound where
  chunks := [Utf8.ofText "GET /a HTTP/1.1\r\n\r\nGET /b HTTP/1.1\r\n\r\n"]

/-- Nothing but the cookie is a reason to end: the requests do not ask for it, and the reply is a plain one with a body
in memory.  Still the first reply is not written, and the second request is not answered. -/
theorem serve_undated :
    undated.stopsBefore = (fun _ => false) ∧ undated.handler.KeepsSizes ∧
      undatedGreeting.headers.cookies ≠ [] ∧
      undatedGreeting.body = .full (Utf8.ofText "hello") ∧ undatedGreeting.isUnframed = false ∧
      (undated.requests askedTwice).map (fun r => (r.method, r.target, r.asksToClose, r.isHttp2Preface)) =
        [(.get, "/a", false, false), (.get, "/b", false, false)] ∧
      (serve undated askedTwice).2.calls.map (·.target) = ["/a"] ∧
      (serve undated askedTwice).2.outbound.written = [] := by
  have hSizes : undated.handler.KeepsSizes := by
    intro r reply content size hCall hBody
    obtain rfl := Except.ok.inj hCall
    cases hBody
  refine ⟨rfl, hSizes, by decide, rfl, rfl, ?_, ?_, ?_⟩
  · decide +kernel
  · decide +kernel
  · decide +kernel

end Session

end HttpServer
