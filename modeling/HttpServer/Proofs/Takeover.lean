import HttpServer.Proofs.FrameStream
import HttpServer.Proofs.SessionAccount

/-!
# Taking a connection over

An application that takes a connection over gets the bytes behind the request that it has answered so, and all of them:
the session has used up that request with its body and nothing beyond, and what it had read ahead goes along with the
stream (`Session.serve_hijack`).

* `Upgraded.reads` — what some reads bring together, whatever their sizes;
* `Setting.Framed` — the input as the requests that were taken off it, and the bytes behind them;
* `Session.Progress` — what is true of a session that goes on, kept by reading a request and by answering it, from
  which the theorem follows by induction on the rounds.
-/

namespace HttpServer

/-! ## Reads of any size -/

namespace Upgraded

/-- The bytes that some reads bring, one behind the other, and the stream that they leave; `sizes` says how many bytes
each of them asks for.  A read that fails brings nothing. -/
def reads (u : Upgraded) : List Nat → Bytes × Upgraded
  | [] => ([], u)
  | n :: sizes =>
    match u.read n with
    | .error _ => u.reads sizes
    | .ok (bytes, u) => (bytes ++ (u.reads sizes).1, (u.reads sizes).2)

variable {u u' : Upgraded} {n : Nat} {sizes : List Nat}

/-- No byte is lost, and none is brought twice. -/
theorem remaining_of_reads (u : Upgraded) (sizes : List Nat) :
    u.remaining = (u.reads sizes).1 ++ (u.reads sizes).2.remaining := by
  induction sizes generalizing u with
  | nil => rfl
  | cons n sizes ih =>
    unfold reads
    cases hRead : u.read n with
    | error e => exact ih u
    | ok r =>
      obtain ⟨bytes, u₁⟩ := r
      dsimp only
      rw [remaining_of_read hRead, ih u₁, List.append_assoc]

theorem ending_of_read {bytes : Bytes} (h : u.read n = .ok (bytes, u')) :
    u'.inbound.ending = u.inbound.ending := by
  unfold read at h
  split at h
  · cases hRead : u.inbound.read n with
    | error e => simp [hRead, Except.map] at h
    | ok r =>
      obtain ⟨bs, inbound⟩ := r
      simp only [hRead, Except.map, Except.ok.injEq, Prod.mk.injEq] at h
      rw [← h.2]
      exact Inbound.ending_of_read hRead
  · simp only [Except.ok.injEq, Prod.mk.injEq] at h
    rw [← h.2]

theorem ending_of_reads (u : Upgraded) (sizes : List Nat) :
    (u.reads sizes).2.inbound.ending = u.inbound.ending := by
  induction sizes generalizing u with
  | nil => rfl
  | cons n sizes ih =>
    unfold reads
    cases hRead : u.read n with
    | error e => exact ih u
    | ok r => exact (ih r.2).trans (ending_of_read hRead)

/-- A read of at least one byte shows the end of the stream if and only if there is no byte left. -/
theorem read_eq_end_iff (hSize : 0 < n) (u : Upgraded) :
    (∃ u', u.read n = .ok ([], u')) ↔ u.remaining = [] ∧ u.inbound.ending = .closed := by
  rcases read_cases hSize u with
    ⟨b, bytes, u₁, hRead, -⟩ | ⟨hEmpty, hEnding, u₁, hRead, -⟩ | ⟨e, hEmpty, hEnding, hRead⟩
  · simp [hRead, remaining_of_read hRead]
  · simp [hRead, hEmpty, hEnding]
  · simp [hRead, hEnding]

theorem read_eq_error_iff (hSize : 0 < n) (u : Upgraded) (e : TransportError) :
    u.read n = .error e ↔ u.remaining = [] ∧ u.inbound.ending = .failed e := by
  rcases read_cases hSize u with
    ⟨b, bytes, u₁, hRead, -⟩ | ⟨hEmpty, hEnding, u₁, hRead, -⟩ | ⟨e', hEmpty, hEnding, hRead⟩
  · simp [hRead, remaining_of_read hRead]
  · simp [hRead, hEnding]
  · simp [hRead, hEmpty, hEnding]

/-- Each read of at least one byte brings a byte as long as there is one. -/
theorem remaining_of_reads_eq_nil (h : u.remaining.length ≤ sizes.countP (0 < ·)) :
    (u.reads sizes).2.remaining = [] := by
  induction sizes generalizing u with
  | nil => exact List.eq_nil_of_length_eq_zero (Nat.le_zero.mp h)
  | cons n sizes ih =>
    unfold reads
    by_cases hSize : 0 < n
    · rw [List.countP_cons_of_pos (by simpa using hSize)] at h
      rcases read_cases hSize u with ⟨b, bytes, u₁, hRead, -⟩ | ⟨hEmpty, -, u₁, hRead, -⟩ | ⟨e, hEmpty, -, hRead⟩
      · have hFewer : u₁.remaining.length ≤ sizes.countP (0 < ·) := by
          rw [remaining_of_read hRead] at h
          simp only [List.length_append, List.length_cons] at h
          omega
        simpa only [hRead] using ih hFewer
      · have hNone : u₁.remaining = [] := by simpa [hEmpty] using (remaining_of_read hRead).symm
        simpa only [hRead] using ih (by simp [hNone])
      · simpa only [hRead] using ih (by simp [hEmpty])
    · rw [List.countP_cons_of_neg (by simpa using hSize)] at h
      cases hRead : u.read n with
      | error e => exact ih h
      | ok r =>
        have hFewer : r.2.remaining.length ≤ sizes.countP (0 < ·) := by
          rw [remaining_of_read hRead, List.length_append] at h
          omega
        exact ih hFewer

/-- The stream brings the bytes `rest` and then its end, whatever the sizes of the reads. -/
structure Delivers (u : Upgraded) (rest : Bytes) (ending : StreamEnd) : Prop where
  /-- The bytes come in their order, none of them is lost, and none comes twice. -/
  inOrder : ∀ sizes, rest = (u.reads sizes).1 ++ (u.reads sizes).2.remaining
  /-- The end of the stream is behind all of them, and nowhere else. -/
  closes : ∀ sizes n, 0 < n →
    ((∃ u', (u.reads sizes).2.read n = .ok ([], u')) ↔ (u.reads sizes).1 = rest ∧ ending = .closed)
  fails : ∀ sizes n e, 0 < n →
    ((u.reads sizes).2.read n = .error e ↔ (u.reads sizes).1 = rest ∧ ending = .failed e)
  /-- There are no more reads than bytes, but for those that ask for nothing. -/
  enough : ∀ sizes, rest.length ≤ sizes.countP (0 < ·) → (u.reads sizes).1 = rest

theorem delivers_remaining (u : Upgraded) : u.Delivers u.remaining u.inbound.ending := by
  -- Nothing is left exactly if all bytes were brought.
  have hAll : ∀ sizes, (u.reads sizes).2.remaining = [] ↔ (u.reads sizes).1 = u.remaining := by
    intro sizes
    rw [remaining_of_reads u sizes]
    exact List.self_eq_append_right.symm
  constructor
  case inOrder => exact remaining_of_reads u
  case closes =>
    intro sizes n hSize
    rw [read_eq_end_iff hSize, hAll, ending_of_reads]
  case fails =>
    intro sizes n e hSize
    rw [read_eq_error_iff hSize, hAll, ending_of_reads]
  case enough =>
    intro sizes hEnough
    exact (hAll sizes).mp (remaining_of_reads_eq_nil hEnough)

end Upgraded

/-! ## The input as requests -/

namespace Setting

variable {setting : Setting}

/-- The application gets the request `r` for the piece `f` of the input: its head within the ceilings, and as many bytes
of a body as it declares. -/
def Reads (setting : Setting) (f : Framing) (r : Request) : Prop :=
  f.Delimited ∧ f.Within setting.config.limits ∧
    ∃ r₀, f.Yields setting.config.limits r₀ ∧ r = setting.received r₀

/-- The input is made of these requests, one behind the other, and of the bytes `rest` behind them. -/
def Framed (setting : Setting) (inbound : Inbound) (requests : List Request) (rest : Bytes) : Prop :=
  ∃ framings, inbound.remaining = framings.flatMap Framing.bytes ++ rest ∧
    List.Forall₂ setting.Reads framings requests

theorem Framed.concat {inbound : Inbound} {requests : List Request} {f : Framing} {r : Request} {rest : Bytes}
    (h : setting.Framed inbound requests (f.bytes ++ rest)) (hReads : setting.Reads f r) :
    setting.Framed inbound (requests ++ [r]) rest := by
  obtain ⟨framings, hBytes, hFramings⟩ := h
  refine ⟨framings ++ [f], by simp [hBytes], ?_⟩
  exact List.rel_append hFramings (.cons hReads .nil)

theorem repliesFrom_concat (n : Nat) (requests : List Request) (r : Request) :
    setting.repliesFrom n (requests ++ [r]) =
      setting.repliesFrom n requests ++ setting.replyBytes (n + requests.length) r := by
  induction requests generalizing n with
  | nil => simp [repliesFrom]
  | cons first requests ih => simp [repliesFrom, ih, Nat.add_assoc, Nat.add_comm 1]

end Setting

/-! ## From round to round -/

namespace Session

variable {setting : Setting} {inbound : Inbound} {s s₁ s₂ : Session} {r : Request}

/-- A request is a piece off the front of the input, and reading it changes nothing but the connection. -/
theorem reads_of_nextRequest (h : s.nextRequest setting = (.ok r, s₁)) :
    ∃ f c, s₁ = { s with connection := c } ∧ setting.Reads f r ∧ s.connection.remaining = f.bytes ++ c.remaining ∧
      c.inbound.ending = s.connection.inbound.ending := by
  unfold nextRequest at h
  split at h
  · simp at h
  rcases s.connection.waitReadable_cases with
    ⟨c, hWait, -, hRemaining, hEnding⟩ | ⟨c, hWait, -⟩ | ⟨e, c, hWait, -⟩
  · rw [hWait] at h
    dsimp only at h
    split at h
    · simp at h
    rename_i r₀ c' hRead
    split at h
    · simp at h
    obtain ⟨hRequest, rfl⟩ := Prod.mk.inj h
    obtain ⟨f, hBytes, hDelimited, hWithin, hYields⟩ :=
      takeRequest_eq_ok_iff.mp (Connection.readRequest_eq_ok_iff.mp ⟨c', hRead, rfl⟩)
    refine ⟨f, c', rfl, ⟨hDelimited, hWithin, r₀, hYields, (Except.ok.inj hRequest).symm⟩, ?_, ?_⟩
    · rw [← hRemaining, hBytes]
    · rw [Connection.ending_of_readRequest hRead, hEnding]
  · simp [hWait] at h
  · simp [hWait] at h

theorem calls_of_nextRequest {x : Except SessionEnd Request} (h : s.nextRequest setting = (x, s₁)) :
    s₁.calls = s.calls := by
  have hReject : ∀ (e : Error) (s : Session), (s.reject e).calls = s.calls := by
    intro e s
    unfold reject
    split
    · rfl
    · split <;> rfl
  cases awaited_of_nextRequest h with
  | stopping | silent | request => rfl
  | refused _ _ hSession | preface _ _ hSession => rw [hSession, hReject]

/-- What is true whenever the requests `taken` are the ones that were taken off the input: the application has taken the
connection over for none of those that it was called with, and their replies are what was written. -/
structure Progress (setting : Setting) (inbound : Inbound) (taken : List Request) (s : Session) : Prop where
  framed : setting.Framed inbound taken s.connection.remaining
  ending : s.connection.inbound.ending = inbound.ending
  plain : ∀ r ∈ s.calls, ∀ reply, setting.handler r = .ok reply → reply.isHijack = false
  count : s.exchanges.length = s.calls.length
  written : s.outbound.written = setting.repliesFrom 0 s.calls
  isOpen : s.outbound.failure = none

namespace Progress

theorem start (setting : Setting) (inbound : Inbound) :
    Progress setting inbound [] (Session.start setting inbound) where
  framed := ⟨[], by simp [Session.start, Connection.remaining], .nil⟩
  ending := rfl
  plain := by simp [Session.start]
  count := rfl
  written := rfl
  isOpen := rfl

/-- The next request is taken off the input. -/
theorem read (h : Progress setting inbound s.calls s) (hNext : s.nextRequest setting = (.ok r, s₁)) :
    Progress setting inbound (s₁.calls ++ [r]) s₁ := by
  obtain ⟨f, c, rfl, hReads, hBytes, hEnding⟩ := reads_of_nextRequest hNext
  exact ⟨.concat (hBytes ▸ h.framed) hReads, hEnding.trans h.ending, h.plain, h.count, h.written, h.isOpen⟩

/-- It is answered, and the next one will be waited for.  Answering has read nothing. -/
theorem next (h : Progress setting inbound (s.calls ++ [r]) s) (hAnswer : s.answer setting r = (none, s₁)) :
    Progress setting inbound s₁.calls s₁ := by
  obtain ⟨hEnds, hCalls, hCount, hWritten, hStillOpen⟩ := goesOn_of_answer hAnswer h.isOpen
  have hConnection := connection_of_answer hAnswer
  constructor
  case framed =>
    rw [hCalls, hConnection]
    exact h.framed
  case ending =>
    rw [hConnection]
    exact h.ending
  case plain =>
    rw [hCalls]
    intro r' hr' reply hReply
    rcases List.mem_append.mp hr' with hr' | hr'
    · exact h.plain r' hr' reply hReply
    · rw [List.mem_singleton.mp hr'] at hReply
      exact Bool.eq_false_iff.mpr fun hHijack => hEnds (.hijacked hReply hHijack)
  case count => simp [hCalls, hCount, h.count]
  case written => rw [hCalls, hWritten, Setting.repliesFrom_concat, Nat.zero_add, h.count, h.written]
  case isOpen => exact hStillOpen

theorem notMem_calls {taken : List Request} (h : Progress setting inbound taken s) {response : Response} {hijacker : Hijacker}
    (hReply : setting.handler r = .ok (.hijack response hijacker)) : r ∉ s.calls := by
  intro hCall
  have hPlain := h.plain r hCall _ hReply
  simp [Reply.isHijack] at hPlain

end Progress

/-! ## The round that takes the connection over -/

/-- How a session ends whose application takes the connection over for the request with number `k`. -/
structure HandedOver (setting : Setting) (inbound : Inbound) (k : Nat) (d : Delivery) (hijacker : Hijacker)
    (stop : SessionEnd) (s : Session) : Prop where
  /-- The request is the last one, and the first that is answered so. -/
  last : s.calls.length = k + 1
  first : ∀ r ∈ s.calls.take k, ∀ reply, setting.handler r = .ok reply → reply.isHijack = false
  framed : setting.Framed inbound s.calls s.connection.remaining
  ending : s.connection.inbound.ending = inbound.ending
  unwritten : d.head? = none ∨ d.isComplete = false → ∃ cause, stop = .unwritable cause
  takenOver : ∀ head, d.head? = some head → d.isComplete = true →
    stop = .takenOver (hijacker s.toUpgraded).1 (hijacker s.toUpgraded).2 ∧
      s.outbound.written = setting.repliesFrom 0 (s.calls.take k) ++ (head ++ d.body)

theorem calls_of_answer {stop : Option SessionEnd} (h : s.answer setting r = (stop, s₁)) :
    s₁.calls = s.calls ++ [r] := by
  cases answered_of_answer h with
  | faulted | headless | unwritten | cut | closed | goesOn => rfl
  | takenOver _ _ hSession =>
    rw [hSession]
    rfl

/-- What answering a request can come to if the application takes the connection over for it. -/
theorem stop_of_hijack {response : Response} {hijacker : Hijacker} {stop : SessionEnd}
    (hAnswer : s.answer setting r = (some stop, s₁)) (hReply : setting.handler r = .ok (.hijack response hijacker))
    (hOpen : s.outbound.failure = none) :
    let d := setting.delivery s.exchanges.length r (.hijack response hijacker)
    (d.head? = none ∨ d.isComplete = false) ∧ (∃ cause, stop = .unwritable cause) ∨
      ∃ head, d.head? = some head ∧ d.isComplete = true ∧
        stop = .takenOver (hijacker s₁.toUpgraded).1 (hijacker s₁.toUpgraded).2 ∧
        s₁.outbound.written = s.outbound.written ++ (head ++ d.body) := by
  cases answered_of_answer hAnswer with
  | faulted hCall | closed hCall => simp [hReply] at hCall
  | headless hCall hHead =>
    obtain rfl := Except.ok.inj (hReply.symm.trans hCall)
    exact .inl ⟨.inl hHead, _, rfl⟩
  | unwritten hCall hWrite =>
    obtain ⟨outbound, hWrite', -⟩ := Outbound.write_of_open hOpen ‹Bytes›
    simp [hWrite'] at hWrite
  | cut hCall hHead hWrite hBody =>
    obtain rfl := Except.ok.inj (hReply.symm.trans hCall)
    exact .inl ⟨.inr hBody, _, rfl⟩
  | takenOver hCall hDelivered hSession =>
    obtain ⟨rfl, rfl⟩ := Reply.hijack.inj (Except.ok.inj (hReply.symm.trans hCall))
    refine .inr ⟨_, hDelivered.text, hDelivered.complete, rfl, ?_⟩
    rw [hSession]
    exact Outbound.written_of_write hDelivered.write

theorem Progress.handedOver {response : Response} {hijacker : Hijacker} {stop : SessionEnd}
    (h : Progress setting inbound (s.calls ++ [r]) s) (hAnswer : s.answer setting r = (some stop, s₁))
    (hReply : setting.handler r = .ok (.hijack response hijacker)) :
    HandedOver setting inbound s.calls.length (setting.delivery s.calls.length r (.hijack response hijacker)) hijacker
      stop s₁ := by
  have hCalls := calls_of_answer hAnswer
  have hPlain : s₁.calls.take s.calls.length = s.calls := by simp [hCalls]
  have hConnection := connection_of_answer hAnswer
  have hStop := stop_of_hijack hAnswer hReply h.isOpen
  rw [h.count] at hStop
  constructor
  case last => simp [hCalls]
  case first =>
    rw [hPlain]
    exact h.plain
  case framed =>
    rw [hCalls, hConnection]
    exact h.framed
  case ending =>
    rw [hConnection]
    exact h.ending
  case unwritten =>
    intro hUnwritten
    rcases hStop with ⟨-, hCause⟩ | ⟨head, hHead, hBody, -⟩
    · exact hCause
    · simp [hHead, hBody] at hUnwritten
  case takenOver =>
    intro head hHead hBody
    rcases hStop with ⟨hUnwritten, -⟩ | ⟨head', hHead', -, hStop, hWritten⟩
    · simp [hHead, hBody] at hUnwritten
    · obtain rfl := Option.some.inj (hHead.symm.trans hHead')
      rw [hPlain, ← h.written]
      exact ⟨hStop, hWritten⟩

/-- A session that stands between two rounds, and whose application will take the connection over for a request, ends
with this.  The induction is on the rounds, and `Progress` is kept by each that is not the last. -/
theorem handedOver_of_run {k : Nat} {response : Response} {hijacker : Hijacker} (s : Session)
    (h : Progress setting inbound s.calls s) (hCall : (run setting s).2.calls[k]? = some r)
    (hReply : setting.handler r = .ok (.hijack response hijacker)) :
    HandedOver setting inbound k (setting.delivery k r (.hijack response hijacker)) hijacker (run setting s).1
      (run setting s).2 := by
  fun_induction run setting s with
  | case1 s stop s' hNext =>
    rw [calls_of_nextRequest hNext] at hCall
    exact absurd (List.mem_of_getElem? hCall) (h.notMem_calls hReply)
  | case2 s r' s₁ hNext stop s' hAnswer =>
    have hRead := h.read hNext
    rw [calls_of_answer hAnswer] at hCall
    -- The request is the one of this round, as all others were answered in another way.
    rcases Nat.lt_or_ge k s₁.calls.length with hOld | hNew
    · rw [List.getElem?_append_left hOld] at hCall
      exact absurd (List.mem_of_getElem? hCall) (hRead.notMem_calls hReply)
    · rw [List.getElem?_append_right hNew, List.getElem?_singleton] at hCall
      split at hCall
      · obtain rfl := Option.some.inj hCall
        obtain rfl : k = s₁.calls.length := by omega
        exact hRead.handedOver hAnswer hReply
      · contradiction
  | case3 s r' s₁ hNext s₂ hAnswer ih => exact ih ((h.read hNext).next hAnswer) hCall

/-- **The bytes behind a request that takes the connection over.**  Let the application take the connection over for the
request with number `k`.  This is the first request that it answers so, and the last that it is called with.  What the
session has used up of the input are the requests up to this one, with their bodies, whatever the pieces in which the
bytes have arrived and however many of them the session had read ahead.  The reads of the hijacker, whatever their
sizes, bring all bytes behind them and then the end of the stream; and what is written before the hijacker writes ends
with the reply.  The hijacker is not called if the reply could not be written whole. -/
theorem serve_hijack (setting : Setting) (inbound : Inbound) {k : Nat} {r : Request} {response : Response}
    {hijacker : Hijacker} (hCall : (serve setting inbound).2.calls[k]? = some r)
    (hReply : setting.handler r = .ok (.hijack response hijacker)) :
    let s := (serve setting inbound).2
    let d := setting.delivery k r (.hijack response hijacker)
    s.calls.length = k + 1 ∧
      (∀ r' ∈ s.calls.take k, ∀ reply, setting.handler r' = .ok reply → reply.isHijack = false) ∧
      (∃ rest, setting.Framed inbound s.calls rest ∧ s.toUpgraded.Delivers rest inbound.ending) ∧
      (∀ head, d.head? = some head → d.isComplete = true →
        serve setting inbound = (.takenOver (hijacker s.toUpgraded).1 (hijacker s.toUpgraded).2, s) ∧
          s.toUpgraded.outbound.written = setting.repliesFrom 0 (s.calls.take k) ++ (head ++ d.body) ∧
          output (serve setting inbound) = (hijacker s.toUpgraded).1.outbound.written) ∧
      (d.head? = none ∨ d.isComplete = false → ∃ cause, (serve setting inbound).1 = .unwritable cause) := by
  intro s d
  have hHandedOver : HandedOver setting inbound k d hijacker (serve setting inbound).1 s :=
    handedOver_of_run _ (.start setting inbound) hCall hReply
  have hDelivers := s.toUpgraded.delivers_remaining
  refine ⟨hHandedOver.last, hHandedOver.first, ⟨_, hHandedOver.framed, ?_⟩, ?_, hHandedOver.unwritten⟩
  · rw [← hHandedOver.ending]
    exact hDelivers
  · intro head hHead hBody
    obtain ⟨hStop, hWritten⟩ := hHandedOver.takenOver head hHead hBody
    have hServe : serve setting inbound = (.takenOver (hijacker s.toUpgraded).1 (hijacker s.toUpgraded).2, s) :=
      Prod.ext hStop rfl
    refine ⟨hServe, hWritten, ?_⟩
    rw [hServe]
    rfl

/-- An application that takes the connection over for one target. -/
def switchboard : Setting where
  handler r :=
    if r.target = "/up" then .ok (.hijack (Response.switchingProtocols "raw") fun u => (u, none))
    else .ok (.respond (Response.text (Utf8.ofText "hello")))

/-- A request, an upgrade with a body, and five bytes behind it that come in two pieces, the first with the body. -/
def earlyBytes : Inbound where
  chunks := ["GET /a HTTP/1.1\r\n\r\nPOST /up HTTP/1.1\r\nContent-Length: 2\r\n\r\nhira", "w!!"].map Utf8.ofText

/-- The five bytes are what is read from the stream that is handed over. -/
theorem serve_switchboard :
    let s := (serve switchboard earlyBytes).2
    ∃ r response hijacker, s.calls[1]? = some r ∧ switchboard.handler r = .ok (.hijack response hijacker) ∧
      s.calls.map (·.target) = ["/a", "/up"] ∧
      (∃ rest, switchboard.Framed earlyBytes s.calls rest ∧ s.toUpgraded.Delivers rest .closed) ∧
      (s.toUpgraded.reads [2, 0, 1, 9]).1 = Utf8.ofText "raw!!" ∧
      serve switchboard earlyBytes = (.takenOver s.toUpgraded none, s) := by
  intro s
  have hCalls : s.calls.map (·.target) = ["/a", "/up"] := by decide +kernel
  obtain ⟨r, hCall, hTarget⟩ : ∃ r, s.calls[1]? = some r ∧ r.target = "/up" := by
    have hSecond : (s.calls.map (·.target))[1]? = some "/up" := by rw [hCalls]; rfl
    simpa using hSecond
  let reply : Reply := .hijack (Response.switchingProtocols "raw") fun u => (u, none)
  have hReply : switchboard.handler r = .ok reply := by simp [switchboard, hTarget, reply]
  obtain ⟨-, -, hRest, hWhole, -⟩ := serve_hijack switchboard earlyBytes hCall hReply
  -- The reply has a head as it has no cookies, and it is complete as it has no body.
  have hText : (switchboard.delivery 1 r reply).head? ≠ none := by
    rw [ne_eq, head?_delivery_eq_none_iff]
    decide
  have hBody : (switchboard.delivery 1 r reply).isComplete = true := by
    rw [isComplete_delivery]
    exact ite_self _
  obtain ⟨head, hHead⟩ := Option.ne_none_iff_exists'.mp hText
  obtain ⟨hServe, -⟩ := hWhole head hHead hBody
  exact ⟨r, _, _, hCall, hReply, hCalls, hRest, by decide +kernel, hServe⟩

end Session
end HttpServer
