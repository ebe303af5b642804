import HttpServer.Method
import HttpServer.Response

/-!
# Response heads as bytes

A head is a status line, one line for each header field, one `Set-Cookie` line for each cookie, and a
blank line.  A head with a cookie whose expiry has no text cannot be written.
-/

namespace HttpServer

/-- The end of a line. -/
def lineEnd : String := "\r\n"

/-- The status that is written for `status`: itself if it is valid, and plain success if not. -/
def Status.written (status : Status) : Status :=
  if status.isValid then status else .ok

/-- The first line of a head. -/
def statusLine (version : Version) (status : Status) : String :=
  (if version.atLeast .http11 then "HTTP/1.1 " else "HTTP/1.0 ") ++ status.written.text ++ lineEnd

/-- The line of one field. -/
def fieldLine (name value : String) : String :=
  name ++ ": " ++ value ++ lineEnd

namespace Headers

/-- The lines of the fields, in order. -/
def fieldLines (h : Headers) : String :=
  String.join (h.fields.map fun (name, value) => fieldLine name value)

/-- The lines of the cookies, in order; `none` when one of them cannot be written. -/
def cookieLines? (h : Headers) : Option String := do
  let values ← h.cookies.mapM Cookie.headerValue?
  return String.join (values.map (fieldLine setCookieName))

end Headers

/-- The text of a head; `none` when a cookie cannot be written. -/
def headText? (version : Version) (status : Status) (headers : Headers) : Option String := do
  let cookies ← headers.cookieLines?
  return statusLine version status ++ headers.fieldLines ++ cookies ++ lineEnd

/-- The bytes of a head; `none` when a cookie cannot be written. -/
def encodeHead? (version : Version) (status : Status) (headers : Headers) : Option Bytes :=
  (headText? version status headers).map Utf8.ofText

end HttpServer
