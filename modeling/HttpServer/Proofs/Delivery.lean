import HttpServer.Proofs.FieldStore
import HttpServer.Session

/-!
# What becomes of a reply

A session adds some fields to a reply, and it does so in one place: what is written is the store of the reply with
`Setting.addedFields` stored into it one by one (`headers_delivery`).  Everything that is known of stores carries over
from there.  The cookies are those of the reply, so only they can keep a head from being written
(`head?_delivery_eq_none_iff`).
-/

namespace HttpServer

/-- The bytes of the head. -/
def Delivery.head? (d : Delivery) : Option Bytes :=
  encodeHead? d.version d.status d.headers

/-- How the reply to the request with number `n` is written. -/
def Setting.delivery (setting : Setting) (n : Nat) (r : Request) (reply : Reply) : Delivery :=
  Delivery.of setting.config ((dateText? (setting.clock n)).getD "") r reply

/-- The fields that are added to those of the reply, in order. -/
def Setting.addedFields (setting : Setting) (n : Nat) (r : Request) (reply : Reply) : List (String × String) :=
  (if reply.response.headers.has "Server" then [] else
    setting.config.serverName.toList.map fun name => ("Server", name)) ++
  [("Date", (dateText? (setting.clock n)).getD "")] ++
  (reply.response.body.size?.toList.map fun size => ("Content-Length", String.ofList (decimal size))) ++
  (if reply.response.headers.has "Content-Type" then [] else
    reply.response.body.defaultType?.toList.map fun type => ("Content-Type", type)) ++
  if !reply.isHijack && (reply.response.isUnframed || r.asksToClose) then [("Connection", "close")] else []

section Delivery

variable {setting : Setting} {n : Nat} {r : Request} {reply : Reply}

theorem body_delivery :
    (setting.delivery n r reply).body = if r.method = .head then [] else reply.response.body.wire.1 := by
  simp only [Setting.delivery, Delivery.of, Method.canHaveResponseBody]
  by_cases hMethod : r.method = .head <;> simp [hMethod]

/-- Only a body that is written can be too short. -/
theorem isComplete_delivery :
    (setting.delivery n r reply).isComplete = if r.method = .head then true else reply.response.body.wire.2 := by
  simp only [Setting.delivery, Delivery.of, Method.canHaveResponseBody]
  by_cases hMethod : r.method = .head <;> simp [hMethod]

private theorem followOf_eq_nextRequest_iff {status : Status} :
    followOf r reply status = .nextRequest ↔
      reply.isHijack = false ∧ reply.response.isUnframed = false ∧ r.asksToClose = false ∧
        ¬(r.method ≠ .head ∧ reply.response.body.isNone = true ∧ status.hasBody = true) := by
  unfold followOf
  cases reply.isHijack with
  | true => simp
  | false =>
    cases reply.response.isUnframed with
    | true => simp
    | false =>
      cases r.asksToClose with
      | true => simp
      | false => simp [and_assoc]

/-- The connection goes on behind a plain reply whose end can be told, if the client does not object. -/
theorem follow_respond_eq_iff {response : Response} :
    (setting.delivery n r (.respond response)).follow = .nextRequest ↔
      response.isUnframed = false ∧ r.asksToClose = false ∧
        ¬(r.method ≠ .head ∧ response.body.isNone = true ∧ (response.chosenStatus r.method).hasBody = true) := by
  change followOf r (.respond response) (response.chosenStatus r.method) = .nextRequest ↔ _
  rw [followOf_eq_nextRequest_iff]
  exact and_iff_right rfl

/-! ## Fields -/

namespace Headers

variable {h : Headers} {fields more : List (String × String)}

theorem has_insert_of_ne {name value key : String} (hKey : sameIgnoringCase name key = false) :
    (h.insert name value).has key = h.has key := by
  simp only [has, get?_insert_of_ne h hKey]

theorem withDefaults_eq_insertAll (serverName : Option String) (date : String) :
    h.withDefaults serverName date =
      h.insertAll ((if h.has "Server" then [] else serverName.toList.map fun name => ("Server", name)) ++
        [("Date", date)]) := by
  unfold withDefaults
  cases serverName with
  | none => simp [insertAll]
  | some name => cases h.has "Server" <;> simp [insertAll]

end Headers

theorem Response.prepare_eq_insertAll (response : Response) :
    response.prepare.headers = response.headers.insertAll
      ((response.body.size?.toList.map fun size => ("Content-Length", String.ofList (decimal size))) ++
        if response.headers.has "Content-Type" then [] else
          response.body.defaultType?.toList.map fun type => ("Content-Type", type)) := by
  have hType : ∀ value : String,
      (response.headers.insert "Content-Length" value).has "Content-Type" = response.headers.has "Content-Type" :=
    fun value => Headers.has_insert_of_ne (by decide)
  unfold prepare
  cases response.body with
  | none => simp [Body.defaultType?, Body.size?, Headers.insertAll]
  | full content =>
    cases hHas : response.headers.has "Content-Type" <;>
      simp [Body.defaultType?, Body.size?, Headers.insertAll, hType, hHas]
  | stream content size =>
    cases size <;> cases hHas : response.headers.has "Content-Type" <;>
      simp [Body.defaultType?, Body.size?, Headers.insertAll, hType, hHas]

/-- What is written is the store of the reply with the added fields in it. -/
theorem headers_delivery :
    (setting.delivery n r reply).headers = reply.response.headers.insertAll (setting.addedFields n r reply) := by
  have hType : ∀ (h : Headers) (name : Option String) (date : String),
      (h.withDefaults name date).has "Content-Type" = h.has "Content-Type" := by
    intro h name date
    unfold Headers.withDefaults
    rw [Headers.has_insert_of_ne (by decide)]
    split
    · split
      · rfl
      · exact Headers.has_insert_of_ne (by decide)
    · rfl
  -- The media type is looked for behind the defaults, which have no say in it.
  simp only [Setting.delivery, Delivery.of, Setting.addedFields, Response.prepare_eq_insertAll, hType]
  simp only [Headers.withDefaults_eq_insertAll, Headers.insertAll_append]
  split
  · rfl
  · rfl

theorem cookies_delivery : (setting.delivery n r reply).headers.cookies = reply.response.headers.cookies := by
  rw [headers_delivery, Headers.cookies_insertAll]

/-- Only a cookie can keep a head from being written. -/
theorem head?_delivery_eq_none_iff :
    (setting.delivery n r reply).head? = none ↔ reply.response.headers.cookieLines? = none := by
  have hLines : (setting.delivery n r reply).headers.cookieLines? = reply.response.headers.cookieLines? := by
    simp only [Headers.cookieLines?, cookies_delivery]
  simp only [Delivery.head?, encodeHead?, headText?, hLines]
  cases reply.response.headers.cookieLines? <;> simp

end Delivery

end HttpServer
