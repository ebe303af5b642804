import HttpServer.Headers.Error
import HttpServer.Status
import HttpServer.Text.Utf8
import HttpServer.Transport.Error
import HttpServer.Url

/-!
# Errors, and what the peer is told about them

Every failure that serving a connection can meet has a cause here.  The cause decides three things: the
message for the log, the status that the peer is told, and the text of the answer.

* A malformed or oversized head, a feature that is missing and a refused upgrade have a status, and
  `Error.cannedResponse?` is the answer that is written before the connection closes.
* A failure of the transport has none: the connection closes in silence.
-/

namespace HttpServer

/-- Which part of a request head grew too long. -/
inductive Limit where
  | headline
  | headerLine
  | headerBlock
  deriving DecidableEq, Repr

/-- What a message calls the part. -/
def Limit.label : Limit → String
  | .headline => "request line"
  | .headerLine => "header line"
  | .headerBlock => "header block"

/-- What is wrong with a request head. -/
inductive ParseError where
  | malformedHeadline
  | invalidMethod (text : String)
  | malformedVersion (text : String)
  | misdirectedTarget (text : String)
  | malformedHeader (line : String)
  | contentTooLarge (length limit : Nat)
  deriving DecidableEq, Repr

namespace ParseError

/-- What the error says. -/
def message : ParseError → String
  | .malformedHeadline => "malformed request line"
  | .invalidMethod text => "invalid HTTP method: " ++ text
  | .malformedVersion text => "malformed HTTP version: " ++ text
  | .misdirectedTarget text => "unparsable request target: " ++ text
  | .malformedHeader line => "malformed header line: " ++ line
  | .contentTooLarge length limit =>
    "declared body of " ++ String.ofList (decimal length) ++ " bytes exceeds limit of " ++
      String.ofList (decimal limit) ++ " bytes"

/-- The status that the peer is told. -/
def status : ParseError → Status
  | .malformedHeadline => .uriTooLong
  | .invalidMethod _ => .notImplemented
  | .malformedVersion _ => .badRequest
  | .misdirectedTarget _ => .misdirectedRequest
  | .malformedHeader _ => .badRequest
  | .contentTooLarge _ _ => .payloadTooLarge

end ParseError

/-- Features that a request may ask for and that are not there. -/
inductive Unsupported where
  | transferEncoding
  | protocolVersion (major minor : Nat)
  deriving DecidableEq, Repr

/-- What the error says. -/
def Unsupported.message : Unsupported → String
  | .transferEncoding => "Unsupported transfer encoding"
  | .protocolVersion _ _ => "Unsupported protocol version"

/-- Why a request cannot become a WebSocket or a tunnel. -/
inductive UpgradeError where
  | webSocketMethod
  | missingConnectionUpgrade
  | missingUpgradeToken
  | unsupportedVersion
  | missingKey
  | tunnelProtocol
  | tunnelMethod
  | tunnelHost
  | tunnelDial (address : String)
  deriving DecidableEq, Repr

namespace UpgradeError

/-- What the error says; the peer reads the same words. -/
def message : UpgradeError → String
  | .webSocketMethod => "websocket: upgrade requires request method GET"
  | .missingConnectionUpgrade => "websocket: 'Upgrade' token not found in 'Connection' header"
  | .missingUpgradeToken => "websocket: 'websocket' token not found in 'Upgrade' header"
  | .unsupportedVersion => "websocket: only version 13 is supported"
  | .missingKey => "websocket: 'Sec-WebSocket-Key' header is missing or blank"
  | .tunnelProtocol => "proxy: tunneling is available only for HTTP/1.x"
  | .tunnelMethod => "proxy: tunneling requires request method CONNECT"
  | .tunnelHost => "proxy: 'Host' header invalid, empty or not available"
  | .tunnelDial address => "proxy: destination '" ++ address ++ "' not available for connection"

/-- The status that the peer is told. -/
def status : UpgradeError → Status
  | .webSocketMethod | .tunnelMethod => .methodNotAllowed
  | .unsupportedVersion => .notImplemented
  | .tunnelProtocol | .tunnelHost | .tunnelDial _ => .badGateway
  | .missingConnectionUpgrade | .missingUpgradeToken | .missingKey => .badRequest

end UpgradeError

/-- Why the keys of a TLS listener cannot be used. -/
inductive TlsError where
  | certificatesUnreadable (path reason : String)
  | keyUnreadable (path reason : String)
  | certificatesMalformed
  | keyMalformed
  | noCertificates
  | noKey
  /-- A failure that the TLS layer words itself. -/
  | reported (text : String)
  deriving DecidableEq, Repr

/-- What the error says. -/
def TlsError.message : TlsError → String
  | .certificatesUnreadable path reason => "Failed to open cert file " ++ path ++ ": " ++ reason
  | .keyUnreadable path reason => "Failed to open key file " ++ path ++ ": " ++ reason
  | .certificatesMalformed => "Failed to parse certs"
  | .keyMalformed => "Failed to parse key"
  | .noCertificates => "No certificates found in file"
  | .noKey => "No private key found in file"
  | .reported text => text

/-- Every failure that serving a connection can meet. -/
inductive Error where
  | parse (e : ParseError)
  | limitExceeded (limit : Limit)
  | unsupported (feature : Unsupported)
  | network (e : TransportError)
  /-- The application failed while it answered a request. -/
  | handlerFault (text : String)
  | upgrade (e : UpgradeError)
  | invalidHeader (e : HeaderError)
  | url (e : UrlError)
  | tls (e : TlsError)
  /-- The server is shutting down. -/
  | serverClosed
  deriving DecidableEq, Repr

namespace Error

/-- What the error says. -/
def message : Error → String
  | .parse e => "parse error: " ++ e.message
  | .limitExceeded limit => limit.label ++ " exceeds its size limit"
  | .unsupported feature => "unsupported: " ++ feature.message
  | .network e => "network error: " ++ e.message
  | .handlerFault text => "handler fault: " ++ text
  | .upgrade e => "upgrade rejected: " ++ e.message
  | .invalidHeader e => "invalid header: " ++ e.message
  | .url e => "invalid url: " ++ e.message
  | .tls e => "TLS error: " ++ e.message
  | .serverClosed => "server closed"

/-- The status that the peer is told; `none` when the peer is told nothing. -/
def status? : Error → Option Status
  | .parse e => some e.status
  | .limitExceeded _ => some .headerFieldsTooLarge
  | .unsupported _ => some .notImplemented
  | .upgrade e => some e.status
  | _ => none

/-- The status that an answer about this error carries: without one of its own, a server failure. -/
def statusOrFailure (e : Error) : Status :=
  e.status?.getD .internalServerError

/-- The text of an answer about this error.  What has no status of its own says nothing about its cause. -/
def responseText (e : Error) : String :=
  match e with
  | .parse (.misdirectedTarget target) => e.statusOrFailure.text ++ ": " ++ target ++ "\n"
  | .unsupported feature => e.statusOrFailure.codeText ++ " " ++ feature.message ++ "\n"
  | .upgrade cause => cause.message ++ "\n"
  | _ => e.statusOrFailure.text ++ "\n"

/-- Whether the error only says that the peer went away. -/
def isPeerGone : Error → Bool
  | .network e => e.isPeerGone
  | _ => false

end Error

/-- A whole response that ends the connection: status line, three fields, and a text. -/
def cannedText (status : Status) (text : String) : String :=
  "HTTP/1.1 " ++ status.text ++ "\r\nContent-Type: text/plain; charset=utf-8\r\nContent-Length: " ++
    String.ofList (decimal (Utf8.ofText text).length) ++ "\r\nConnection: close\r\n\r\n" ++ text

/-- The bytes that are written before the connection closes; none when the peer is told nothing. -/
def Error.cannedResponse? (e : Error) : Option Bytes :=
  e.status?.map fun status => Utf8.ofText (cannedText status e.responseText)

end HttpServer
