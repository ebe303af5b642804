import HttpServer.Proofs.ResponseHead
import HttpServer.Proofs.SessionRounds

/-!
# Where a response ends

Behind a plain reply a session goes on only if the peer can tell where the response ends.  What the peer is told is the
length in the store that is written, and that is the length of the body if the body has one, and what the application
has set if not (`lookup_length_delivery`).

Behind a status that promises a body, that is enough: the head declares the exact number of bytes behind it
(`Session.framed_reply`).
-/

namespace HttpServer

/-! ## Lengths -/

theorem Body.length_wire {body : Body} {size : Nat} (hSize : body.size? = some size) (hWhole : body.wire.2 = true) :
    body.wire.1.length = size := by
  cases body with
  | none => simp [size?] at hSize
  | full content => simpa [size?, wire] using hSize
  | stream content declared =>
    cases declared with
    | none => simp [size?] at hSize
    | some n =>
      simp only [size?, Option.some.injEq] at hSize
      simp only [wire, decide_eq_true_eq] at hWhole
      simp only [wire, List.length_take]
      omega

theorem Response.exists_size {response : Response} (hSome : response.body.isNone = false)
    (hFramed : response.isUnframed = false) : ∃ size, response.body.size? = some size := by
  unfold isUnframed at hFramed
  cases hBody : response.body with
  | none => simp [hBody, Body.isNone] at hSome
  | full content => exact ⟨_, rfl⟩
  | stream content size =>
    cases size with
    | none => simp [hBody] at hFramed
    | some size => exact ⟨size, rfl⟩

/-! ## Deliveries -/

theorem Headers.Sound.insertAll {h : Headers} {fields : List (String × String)} (hSound : h.Sound)
    (hFields : ∀ field ∈ fields,
      canonicalName field.1 = field.1 ∧ isToken field.1 = true ∧ isFieldValue field.2 = true) :
    (h.insertAll fields).Sound := by
  induction fields generalizing h with
  | nil => exact hSound
  | cons field fields ih =>
    obtain ⟨hCanonical, hToken, hValue⟩ := hFields field (by simp)
    exact ih (hSound.insert hCanonical hToken hValue) fun f hf => hFields f (by simp [hf])

section Delivery

variable {setting : Setting} {n : Nat} {r : Request} {reply : Reply}

/-- What is added fits on lines if the name of the server does. -/
theorem added_fits (hServer : setting.config.serverName.all isFieldValue = true) :
    ∀ field ∈ setting.addedFields n r reply,
      canonicalName field.1 = field.1 ∧ isToken field.1 = true ∧ isFieldValue field.2 = true := by
  have hDate : isFieldValue ((dateText? (setting.clock n)).getD "") = true := by
    cases hText : dateText? (setting.clock n) with
    | none => decide
    | some text => exact isFieldValue_dateText hText
  have hType : ∀ type, reply.response.body.defaultType? = some type → isFieldValue type = true := by
    intro type hType
    unfold Body.defaultType? at hType
    split at hType
    · simp at hType
    · obtain rfl := Option.some.inj hType
      decide
    · obtain rfl := Option.some.inj hType
      decide
  simp only [Setting.addedFields, List.mem_append]
  rintro ⟨name, value⟩ hField
  dsimp only
  rcases hField with (((hMem | hMem) | hMem) | hMem) | hMem
  · split at hMem
    · simp at hMem
    · simp only [List.mem_map, Option.mem_toList, Prod.mk.injEq] at hMem
      obtain ⟨server, hName, rfl, rfl⟩ := hMem
      rw [hName] at hServer
      exact ⟨by decide, by decide, hServer⟩
  · simp only [List.mem_singleton, Prod.mk.injEq] at hMem
    obtain ⟨rfl, rfl⟩ := hMem
    exact ⟨by decide, by decide, hDate⟩
  · simp only [List.mem_map, Option.mem_toList, Prod.mk.injEq] at hMem
    obtain ⟨size, -, rfl, rfl⟩ := hMem
    exact ⟨by decide, by decide, isFieldValue_decimal size⟩
  · split at hMem
    · simp at hMem
    · simp only [List.mem_map, Option.mem_toList, Prod.mk.injEq] at hMem
      obtain ⟨type, hDefault, rfl, rfl⟩ := hMem
      exact ⟨by decide, by decide, hType type hDefault⟩
  · split at hMem
    · simp only [List.mem_singleton, Prod.mk.injEq] at hMem
      obtain ⟨rfl, rfl⟩ := hMem
      exact ⟨by decide, by decide, by decide⟩
    · simp at hMem

theorem sound_delivery (hServer : setting.config.serverName.all isFieldValue = true)
    (hSound : reply.response.headers.Sound) : (setting.delivery n r reply).headers.Sound := by
  rw [headers_delivery]
  exact hSound.insertAll (added_fits hServer)

theorem lookup_addedFields : (setting.addedFields n r reply).reverse.lookup lengthName =
    reply.response.body.size?.map fun size => String.ofList (decimal size) := by
  have hNone : ∀ fields : List (String × String), (∀ field ∈ fields, field.1 ≠ lengthName) →
      fields.reverse.lookup lengthName = none := by
    intro fields hOther
    refine Headers.lookup_eq_none_of_not_mem fun hMem => ?_
    obtain ⟨field, hField, hName⟩ := List.mem_map.mp hMem
    exact hOther field (by simpa using hField) hName
  have hServer : "Server" ≠ lengthName := by decide
  have hDate : "Date" ≠ lengthName := by decide
  have hType : "Content-Type" ≠ lengthName := by decide
  have hConnection : "Connection" ≠ lengthName := by decide
  simp only [Setting.addedFields, List.reverse_append, List.lookup_append]
  rw [hNone (ite _ [("Connection", "close")] []), hNone (ite _ [] (List.map (fun type => ("Content-Type", type)) _)),
    hNone (ite _ [] _), hNone [("Date", _)]]
  · cases reply.response.body.size? with
    | none => rfl
    | some size => rfl
  · simp [hDate]
  · split <;> simp [hServer]
  · split <;> simp [hType]
  · split <;> simp [hConnection]

/-- The length that is written: that of the body, or the one that the application has set. -/
theorem lookup_length_delivery :
    (setting.delivery n r reply).headers.fields.lookup lengthName =
      (reply.response.body.size?.map fun size => String.ofList (decimal size)).or
        (reply.response.headers.fields.lookup lengthName) := by
  rw [headers_delivery, Headers.lookup_insertAll, lookup_addedFields]

end Delivery

/-! ## Replies -/

/-- A head with what follows it, in which the head declares the exact number of bytes that follow, once. -/
def IsFramed (response : Bytes) : Prop :=
  ∃ lines body, cutHead response = some (lines, body) ∧
    declaredLengths lines.tail = [String.ofList (decimal body.length)]

/-- A head with nothing behind it. -/
def EndsWithHead (response : Bytes) : Prop :=
  ∃ lines, cutHead response = some (lines, [])

instance (response : Bytes) : Decidable (IsFramed response) :=
  decidable_of_iff
    ((cutHead response).any (fun (lines, body) => declaredLengths lines.tail == [String.ofList (decimal body.length)]))
    (by simp [IsFramed, Option.any_eq_true])

instance (response : Bytes) : Decidable (EndsWithHead response) :=
  decidable_of_iff ((cutHead response).map Prod.snd = some []) (by simp [EndsWithHead])

/-- The number of bytes behind a head is known, so there is one length to declare. -/
theorem isFramed_iff {response body : Bytes} {lines : List Bytes} (hCut : cutHead response = some (lines, body)) :
    IsFramed response ↔ declaredLengths lines.tail = [String.ofList (decimal body.length)] := by
  simp [IsFramed, hCut]

theorem endsWithHead_iff {response body : Bytes} {lines : List Bytes} (hCut : cutHead response = some (lines, body)) :
    EndsWithHead response ↔ body = [] := by
  simp [EndsWithHead, hCut]

/-- An application that fills its stores through the checks. -/
def Handler.FillsChecked (handler : Handler) : Prop :=
  ∀ r reply, handler r = .ok reply → reply.response.headers.Built

namespace Session

variable {setting : Setting} {inbound : Inbound} {r : Request} {response : Response} {stop : Option SessionEnd}
  {s s' : Session}

/-- What a plain reply puts on the stream: nothing, and the session ends, or its head and its body.  If the session
goes on, the body is whole and may be followed by the next request. -/
theorem written_of_answer (hCall : setting.handler r = .ok (.respond response))
    (hAnswer : s.answer setting r = (stop, s')) :
    stop ≠ none ∧ s'.outbound.written = s.outbound.written ∨
      ∃ head, (setting.delivery s.exchanges.length r (.respond response)).head? = some head ∧
        s'.outbound.written =
          s.outbound.written ++ (head ++ (setting.delivery s.exchanges.length r (.respond response)).body) ∧
        (stop = none → (setting.delivery s.exchanges.length r (.respond response)).isComplete = true ∧
          (setting.delivery s.exchanges.length r (.respond response)).follow = .nextRequest) := by
  cases answered_of_answer hAnswer with
  | faulted hFault => simp [hCall] at hFault
  | headless => exact .inl ⟨by simp, rfl⟩
  | unwritten => exact .inl ⟨by simp, rfl⟩
  | cut hReply hHead hWrite =>
    obtain rfl := Except.ok.inj (hCall.symm.trans hReply)
    exact .inr ⟨_, hHead, Outbound.written_of_write hWrite, by simp⟩
  | takenOver hReply => simp [hCall] at hReply
  | closed hReply hDelivered =>
    obtain ⟨rfl⟩ := Reply.respond.inj (Except.ok.inj (hCall.symm.trans hReply))
    exact .inr ⟨_, hDelivered.text, Outbound.written_of_write hDelivered.write, by simp⟩
  | goesOn hReply hDelivered hFollow =>
    obtain ⟨rfl⟩ := Reply.respond.inj (Except.ok.inj (hCall.symm.trans hReply))
    exact .inr ⟨_, hDelivered.text, Outbound.written_of_write hDelivered.write, fun _ => ⟨hDelivered.complete, hFollow⟩⟩

/-- What the peer reads of a plain reply: it gets the body behind the head, and it finds the length of the body, or
without one the length that the application has set. -/
theorem read_of_head {head : Bytes} (hServer : setting.config.serverName.all isFieldValue = true)
    (hBuilt : setting.handler.FillsChecked) (hCall : setting.handler r = .ok (.respond response))
    (hHead : (setting.delivery s.exchanges.length r (.respond response)).head? = some head) (body : Bytes) :
    ∃ lines, cutHead (head ++ body) = some (lines, body) ∧
      declaredLengths lines.tail =
        ((response.body.size?.map fun size => String.ofList (decimal size)).or
          ((response.headers.fields.lookup lengthName).map trimText)).toList := by
  have hSound : (setting.delivery s.exchanges.length r (.respond response)).headers.Sound :=
    sound_delivery hServer (Headers.sound_of_built (hBuilt r _ hCall))
  obtain ⟨values, -, hCut⟩ := cutHead_of_encodeHead hSound hHead body
  refine ⟨_, hCut, ?_⟩
  rw [declaredLengths_headTexts hSound, lookup_length_delivery]
  cases hSize : response.body.size? <;> simp [Reply.response, hSize]

/-- **Replies end where their head says.**  In every round of every connection, whatever the application answers: if the
session goes on behind a plain reply to anything but `HEAD`, and the status promises a body, then the head declares the
exact number of bytes that were written behind it, and declares it once; and behind the head of a plain reply to `HEAD`
nothing is written. -/
theorem framed_reply (hServer : setting.config.serverName.all isFieldValue = true)
    (hBuilt : setting.handler.FillsChecked) (hRound : Round setting inbound r (.respond response) stop s s') :
    ∃ w, s'.outbound.written = s.outbound.written ++ w ∧
      (stop = none → r.method ≠ .head → (response.chosenStatus r.method).hasBody = true → IsFramed w) ∧
      (r.method = .head → w = [] ∨ EndsWithHead w) := by
  rcases written_of_answer hRound.call hRound.answer with ⟨hStop, hWritten⟩ | ⟨head, hHead, hWritten, hGoesOn⟩
  · exact ⟨[], by simp [hWritten], fun h => absurd h hStop, fun _ => .inl rfl⟩
  obtain ⟨lines, hCut, hLengths⟩ := read_of_head hServer hBuilt hRound.call hHead
    (setting.delivery s.exchanges.length r (.respond response)).body
  refine ⟨_, hWritten, ?framed, ?silent⟩
  case framed =>
    intro hStop hMethod hStatus
    obtain ⟨hWhole, hFollow⟩ := hGoesOn hStop
    rw [isComplete_delivery, if_neg hMethod] at hWhole
    obtain ⟨hFramed, -, hPromise⟩ := follow_respond_eq_iff.mp hFollow
    -- There is a body, for the status promises one, and it has a length.
    have hSome : response.body.isNone = false := by
      cases hNone : response.body.isNone with
      | false => rfl
      | true => exact absurd ⟨hMethod, hNone, hStatus⟩ hPromise
    obtain ⟨size, hSize⟩ := Response.exists_size hSome hFramed
    rw [isFramed_iff hCut, hLengths, hSize, body_delivery, if_neg hMethod]
    simp [Reply.response, Body.length_wire hSize hWhole]
  case silent =>
    intro hMethod
    rw [body_delivery, if_pos hMethod] at hCut ⊢
    exact .inr ⟨lines, hCut⟩

/-- What a peer goes by that knows the status: behind 204 and 304 there is no body, and behind any other status the body
is as long as the head declares. -/
def TellsItsEnd (status : Status) (response : Bytes) : Prop :=
  if status.code = 204 ∨ status.code = 304 then EndsWithHead response else IsFramed response

instance (status : Status) (response : Bytes) : Decidable (TellsItsEnd status response) := by
  unfold TellsItsEnd
  infer_instance

/-- **When the peer can tell where a reply ends.**  Behind a plain reply to anything but `HEAD` the session may go on
although the peer cannot tell where the next response begins.  It can tell exactly if the application attached no byte
to a reply with status 204 or 304, and if it attached a body to a reply with another status, be it an empty one, or set
a length of zero itself. -/
theorem tellsItsEnd_iff (hServer : setting.config.serverName.all isFieldValue = true)
    (hBuilt : setting.handler.FillsChecked) (hRound : Round setting inbound r (.respond response) none s s')
    (hMethod : r.method ≠ .head) :
    ∃ w, s'.outbound.written = s.outbound.written ++ w ∧
      (TellsItsEnd (response.chosenStatus r.method) w ↔
        if (response.chosenStatus r.method).code = 204 ∨ (response.chosenStatus r.method).code = 304 then
          response.body.wire.1 = []
        else response.body ≠ .none ∨ (response.headers.fields.lookup lengthName).map trimText = some "0") := by
  rcases written_of_answer hRound.call hRound.answer with ⟨hStop, -⟩ | ⟨head, hHead, hWritten, hGoesOn⟩
  · exact absurd rfl hStop
  obtain ⟨hWhole, hFollow⟩ := hGoesOn rfl
  rw [isComplete_delivery, if_neg hMethod] at hWhole
  rw [body_delivery, if_neg hMethod] at hWritten
  obtain ⟨lines, hCut, hLengths⟩ := read_of_head hServer hBuilt hRound.call hHead response.body.wire.1
  refine ⟨_, hWritten, ?_⟩
  unfold TellsItsEnd
  split
  · exact endsWithHead_iff hCut
  · change IsFramed (head ++ response.body.wire.1) ↔ _
    rw [isFramed_iff hCut, hLengths]
    by_cases hNone : response.body = .none
    · -- No length is added, so the one that counts is the one that was set.
      have hZero : String.ofList (decimal 0) = "0" := rfl
      cases hSet : (response.headers.fields.lookup lengthName).map trimText <;>
        simp [hNone, Body.size?, Body.wire, hZero]
    · obtain ⟨hFramed, -⟩ := follow_respond_eq_iff.mp hFollow
      have hSome : response.body.isNone = false := by
        unfold Body.isNone
        split
        · contradiction
        · rfl
      obtain ⟨size, hSize⟩ := Response.exists_size hSome hFramed
      simp [hNone, hSize, Body.length_wire hSize hWhole]

/-! A connection with one request on it serves to show what happens to a reply. -/

/-- One request. -/
def onceAsked : Inbound where
  chunks := [Utf8.ofText "GET / HTTP/1.1\r\n\r\n"]

/-- The request as it is read. -/
def plainGet : Request where
  method := .get
  version := .http11
  target := "/"
  url := { path := "/" }

/-- The session that has read it. -/
def asked (setting : Setting) : Session :=
  ((start setting onceAsked).nextRequest setting).2

/-- The session that has answered it. -/
def replied (setting : Setting) : Session :=
  ((asked setting).answer setting plainGet).2

theorem round_replied (hNext : ((start setting onceAsked).nextRequest setting).1 = .ok plainGet)
    (hCall : setting.handler plainGet = .ok (.respond response))
    (hAnswer : ((asked setting).answer setting plainGet).1 = stop) :
    Round setting onceAsked plainGet (.respond response) stop (asked setting) (replied setting) where
  reached := ⟨start setting onceAsked, .start, Prod.ext hNext rfl⟩
  call := hCall
  answer := Prod.ext hAnswer rfl

theorem written_replied {w : Bytes} (hNext : ((start setting onceAsked).nextRequest setting).1 = .ok plainGet)
    (hWritten : (replied setting).outbound.written = (asked setting).outbound.written ++ w) :
    w = (replied setting).outbound.written := by
  have hNothing : (asked setting).outbound = {} := outbound_of_nextRequest (Prod.ext hNext rfl)
  rw [hWritten, hNothing]
  rfl

/-- An application that always answers the same. -/
def answering (response : Response) : Setting where
  handler _ := .ok (.respond response)

theorem fillsChecked_answering (hBuilt : response.headers.Built) : (answering response).handler.FillsChecked := by
  intro r reply hCall
  obtain rfl := Except.ok.inj hCall
  exact hBuilt

theorem built_text (content : Bytes) : (Response.text content).headers.Built :=
  Headers.Built.empty.setOrDrop "Content-Type" "text/plain; charset=utf-8"

theorem built_redirect (location : String) (permanent : Bool) : (Response.redirect location permanent).headers.Built :=
  Headers.Built.empty.setOrDrop "Location" location

/-- A text is answered with its length. -/
theorem framed_reply_text :
    let setting := answering (Response.text (Utf8.ofText "hello"))
    setting.config.serverName.all isFieldValue = true ∧ setting.handler.FillsChecked ∧
      Round setting onceAsked plainGet (.respond (Response.text (Utf8.ofText "hello"))) none (asked setting)
        (replied setting) ∧
      ∃ w, (replied setting).outbound.written = (asked setting).outbound.written ++ w ∧ IsFramed w := by
  intro setting
  have hServer : setting.config.serverName.all isFieldValue = true := by decide
  have hBuilt : setting.handler.FillsChecked := fillsChecked_answering (built_text _)
  have hRound : Round setting onceAsked plainGet (.respond (Response.text (Utf8.ofText "hello"))) none (asked setting)
      (replied setting) := round_replied (by decide +kernel) rfl (by decide +kernel)
  obtain ⟨w, hWritten, hFramed, -⟩ := framed_reply hServer hBuilt hRound
  exact ⟨hServer, hBuilt, hRound, w, hWritten, hFramed rfl (by decide) (by decide)⟩

/-- The name of the server is written as it is configured.  A name with a line end in it brings a field of its own, and
then there are two lengths. -/
theorem framed_reply_needs_server_name :
    let setting := { answering (Response.text (Utf8.ofText "hello")) with
      config := { serverName := some "x\r\nContent-Length: 7" } }
    setting.handler.FillsChecked ∧
      Round setting onceAsked plainGet (.respond (Response.text (Utf8.ofText "hello"))) none (asked setting)
        (replied setting) ∧
      plainGet.method ≠ .head ∧
      ((Response.text (Utf8.ofText "hello")).chosenStatus plainGet.method).hasBody = true ∧
      ∀ w, (replied setting).outbound.written = (asked setting).outbound.written ++ w → ¬IsFramed w := by
  intro setting
  have hRound : Round setting onceAsked plainGet (.respond (Response.text (Utf8.ofText "hello"))) none (asked setting)
      (replied setting) := round_replied (by decide +kernel) rfl (by decide +kernel)
  refine ⟨fillsChecked_answering (built_text _), hRound, by decide, by decide, fun w hWritten => ?_⟩
  rw [written_replied (by decide +kernel) hWritten]
  decide +kernel

/-- A redirect with a page behind it tells its end. -/
theorem tellsItsEnd_page :
    let page : Response := { status := some ⟨302⟩, body := .full (Utf8.ofText "moved") }
    let setting := answering page
    setting.config.serverName.all isFieldValue = true ∧ setting.handler.FillsChecked ∧
      Round setting onceAsked plainGet (.respond page) none (asked setting) (replied setting) ∧
      plainGet.method ≠ .head ∧
      ∃ w, (replied setting).outbound.written = (asked setting).outbound.written ++ w ∧
        TellsItsEnd (page.chosenStatus plainGet.method) w := by
  intro page setting
  have hServer : setting.config.serverName.all isFieldValue = true := by decide
  have hBuilt : setting.handler.FillsChecked := fillsChecked_answering .empty
  have hRound : Round setting onceAsked plainGet (.respond page) none (asked setting) (replied setting) :=
    round_replied (by decide +kernel) rfl (by decide +kernel)
  obtain ⟨w, hWritten, hTells⟩ := tellsItsEnd_iff hServer hBuilt hRound (by decide)
  exact ⟨hServer, hBuilt, hRound, by decide, w, hWritten, hTells.mpr (by decide)⟩

/-- A redirect as `Response.redirect` makes it declares no length, and the session goes on. -/
theorem not_tellsItsEnd_redirect :
    let setting := answering (Response.redirect "/x" false)
    setting.handler.FillsChecked ∧
      Round setting onceAsked plainGet (.respond (Response.redirect "/x" false)) none (asked setting)
        (replied setting) ∧
      plainGet.method ≠ .head ∧
      ∀ w, (replied setting).outbound.written = (asked setting).outbound.written ++ w →
        ¬TellsItsEnd ((Response.redirect "/x" false).chosenStatus plainGet.method) w := by
  intro setting
  have hRound : Round setting onceAsked plainGet (.respond (Response.redirect "/x" false)) none (asked setting)
      (replied setting) := round_replied (by decide +kernel) rfl (by decide +kernel)
  refine ⟨fillsChecked_answering (built_redirect "/x" false), hRound, by decide, fun w hWritten => ?_⟩
  rw [written_replied (by decide +kernel) hWritten]
  decide +kernel

/-- A body that is attached to a reply without content is written all the same. -/
theorem not_tellsItsEnd_noContent :
    let gone : Response := { status := some .noContent, body := .full (Utf8.ofText "gone") }
    let setting := answering gone
    setting.handler.FillsChecked ∧
      Round setting onceAsked plainGet (.respond gone) none (asked setting) (replied setting) ∧
      plainGet.method ≠ .head ∧
      ∀ w, (replied setting).outbound.written = (asked setting).outbound.written ++ w →
        ¬TellsItsEnd (gone.chosenStatus plainGet.method) w := by
  intro gone setting
  have hRound : Round setting onceAsked plainGet (.respond gone) none (asked setting) (replied setting) :=
    round_replied (by decide +kernel) rfl (by decide +kernel)
  refine ⟨fillsChecked_answering .empty, hRound, by decide, fun w hWritten => ?_⟩
  rw [written_replied (by decide +kernel) hWritten]
  decide +kernel

end Session

end HttpServer
