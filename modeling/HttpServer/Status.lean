import HttpServer.Text.Number

/-!
# Status codes
-/

namespace HttpServer

/-- A status code.  Any number may be stored; only the valid ones are written. -/
structure Status where
  code : Nat
  deriving DecidableEq, Repr

namespace Status

/-- Upgrade to another protocol. -/
def switchingProtocols : Status := ⟨101⟩

/-- Success. -/
def ok : Status := ⟨200⟩

/-- Success without a body. -/
def noContent : Status := ⟨204⟩

/-- Moved for now, to be asked again with the same method. -/
def temporaryRedirect : Status := ⟨307⟩

/-- Moved for good, to be asked again with the same method. -/
def permanentRedirect : Status := ⟨308⟩

/-- The request is malformed. -/
def badRequest : Status := ⟨400⟩

/-- There is nothing at the target. -/
def notFound : Status := ⟨404⟩

/-- The method does not fit the target. -/
def methodNotAllowed : Status := ⟨405⟩

/-- The body is too long. -/
def payloadTooLarge : Status := ⟨413⟩

/-- The request line cannot be split. -/
def uriTooLong : Status := ⟨414⟩

/-- The target cannot be understood. -/
def misdirectedRequest : Status := ⟨421⟩

/-- The head is too long. -/
def headerFieldsTooLarge : Status := ⟨431⟩

/-- The server failed. -/
def internalServerError : Status := ⟨500⟩

/-- The server does not have the feature. -/
def notImplemented : Status := ⟨501⟩

/-- The server could not reach the one behind it. -/
def badGateway : Status := ⟨502⟩

/-- The words that go with a code on the status line. -/
def reason (s : Status) : String :=
  match s.code with
  | 100 => "Continue"
  | 101 => "Switching Protocols"
  | 102 => "Processing"
  | 103 => "Early Hints"
  | 200 => "OK"
  | 201 => "Created"
  | 202 => "Accepted"
  | 203 => "Non-Authoritative Information"
  | 204 => "No Content"
  | 205 => "Reset Content"
  | 206 => "Partial Content"
  | 207 => "Multi-Status"
  | 208 => "Already Reported"
  | 226 => "IM Used"
  | 300 => "Multiple Choices"
  | 301 => "Moved Permanently"
  | 302 => "Found"
  | 303 => "See Other"
  | 304 => "Not Modified"
  | 305 => "Use Proxy"
  | 307 => "Temporary Redirect"
  | 308 => "Permanent Redirect"
  | 400 => "Bad Request"
  | 401 => "Unauthorized"
  | 402 => "Payment Required"
  | 403 => "Forbidden"
  | 404 => "Not Found"
  | 405 => "Method Not Allowed"
  | 406 => "Not Acceptable"
  | 407 => "Proxy Authentication Required"
  | 408 => "Request Timeout"
  | 409 => "Conflict"
  | 410 => "Gone"
  | 411 => "Length Required"
  | 412 => "Precondition Failed"
  | 413 => "Request Entity Too Large"
  | 414 => "Request URI Too Long"
  | 415 => "Unsupported Media Type"
  | 416 => "Requested Range Not Satisfiable"
  | 417 => "Expectation Failed"
  | 418 => "I'm a teapot"
  | 421 => "Misdirected Request"
  | 422 => "Unprocessable Entity"
  | 423 => "Locked"
  | 424 => "Failed Dependency"
  | 425 => "Too Early"
  | 426 => "Upgrade Required"
  | 428 => "Precondition Required"
  | 429 => "Too Many Requests"
  | 431 => "Request Header Fields Too Large"
  | 451 => "Unavailable For Legal Reasons"
  | 500 => "Internal Server Error"
  | 501 => "Not Implemented"
  | 502 => "Bad Gateway"
  | 503 => "Service Unavailable"
  | 504 => "Gateway Timeout"
  | 505 => "HTTP Version Not Supported"
  | 506 => "Variant Also Negotiates"
  | 507 => "Insufficient Storage"
  | 508 => "Loop Detected"
  | 510 => "Not Extended"
  | 511 => "Network Authentication Required"
  | _ => "Unknown"

/-- The code as a numeral. -/
def codeText (s : Status) : String :=
  String.ofList (decimal s.code)

/-- Code and reason. -/
def text (s : Status) : String :=
  s.codeText ++ " " ++ s.reason

/-- Whether the code may be written on a status line. -/
def isValid (s : Status) : Bool :=
  100 ≤ s.code && s.code < 600

/-- The class of codes from 100 on. -/
def isInformational (s : Status) : Bool :=
  100 ≤ s.code && s.code < 200

/-- The class of codes from 200 on. -/
def isSuccess (s : Status) : Bool :=
  200 ≤ s.code && s.code < 300

/-- The class of codes from 300 on. -/
def isRedirect (s : Status) : Bool :=
  300 ≤ s.code && s.code < 400

/-- The class of codes from 400 on. -/
def isClientError (s : Status) : Bool :=
  400 ≤ s.code && s.code < 500

/-- The class of codes from 500 on. -/
def isServerError (s : Status) : Bool :=
  500 ≤ s.code && s.code < 600

/-- Whether a response with this code promises a body: not with an informational code, with 204, or with a
redirect. -/
def hasBody (s : Status) : Bool :=
  !(s.isInformational || s.code == 204 || s.isRedirect)

end Status
end HttpServer
