import HttpServer.Error
import HttpServer.Headers
import HttpServer.Method
import HttpServer.Text.Blank
import HttpServer.Url.Host

/-!
# Bringing the fields of a request into shape

Before a handler sees a request, its fields are brought into one shape: a `Host` that is no host gives way to
the authority of the target, or goes, and the old `Pragma: no-cache` is said as `Cache-Control`.  A body in a
transfer encoding is refused, because only a declared length delimits a body here.
-/

namespace HttpServer.Headers

/-- Replace a `Host` that is absent or no host by the authority of the target, or take it away. -/
def amendHost (h : Headers) (url : Url) : Headers :=
  if (h.get? "Host").any Host.isValid then h
  else if url.host.isEmpty then h.remove "Host"
  else h.insert "Host" url.authority

/-- Say an old request for a fresh answer in the way of today, unless that is said already. -/
def amendPragma (h : Headers) : Headers :=
  if (h.get? "Pragma").any (fun value => sameIgnoringCase (trimText value) "no-cache") &&
      !h.has "Cache-Control" then
    h.insert "Cache-Control" "no-cache"
  else h

/-- The fields of a request in the shape in which handlers see them. -/
def amend (h : Headers) (url : Url) : Headers :=
  (h.amendHost url).amendPragma

/-- Refuse a transfer encoding, which exists from version 1.1 on. -/
def checkTransferEncoding (h : Headers) (version : Version) : Except Error Unit :=
  if version.atLeast .http11 && h.has "Transfer-Encoding" then .error (.unsupported .transferEncoding)
  else .ok ()

end HttpServer.Headers
