import HttpServer.Headers.Value
import HttpServer.Request
import HttpServer.Response
import HttpServer.Text.Base64
import HttpServer.WebSocket.Dialog
import HttpServer.WebSocket.Sha1

/-!
# The WebSocket handshake

A request that wants to become a WebSocket says so in four fields and brings a key.  The answer proves that
the server understood: it is derived from the key.
-/

namespace HttpServer.Handshake

/-- The text that every key is joined with. -/
def acceptSalt : String := "258EAFA5-E914-47DA-95CA-C5AB0DC85B11"

/-- The answer to a key. -/
def acceptKey (key : String) : String :=
  String.ofList (Base64.encode (Sha1.digest (Utf8.ofText (key ++ acceptSalt))))

/-- The extension that compresses messages. -/
def deflateExtension : String := "permessage-deflate"

/-- The extension with the parameters that the server agrees to. -/
def agreedExtension : String :=
  deflateExtension ++ "; server_no_context_takeover; client_no_context_takeover"

/-- The key of a request that may become a WebSocket. -/
def clientKey (r : Request) : Except UpgradeError String :=
  if r.method ≠ .get then .error .webSocketMethod
  else if !(r.header? "Connection").any (hasToken · "upgrade") then .error .missingConnectionUpgrade
  else if !(r.header? "Upgrade").any (fun v => sameIgnoringCase (trimText v) "websocket") then
    .error .missingUpgradeToken
  else if (r.header? "Sec-WebSocket-Version").map trimText ≠ some "13" then .error .unsupportedVersion
  else
    match (r.header? "Sec-WebSocket-Key").map trimText with
    | none => .error .missingKey
    | some key => if key.isEmpty then .error .missingKey else .ok key

/-- Whether both sides want messages to be compressed. -/
def agreesToCompress (config : WebSocketConfig) (r : Request) : Bool :=
  config.enableCompression &&
    (r.header? "Sec-WebSocket-Extensions").any fun v => occursIn deflateExtension.toList v.toList

/-- What the server agrees to. -/
structure Agreement where
  key : String
  compressed : Bool
  response : Response
  deriving DecidableEq, Repr

/-- Answer a request that wants to become a WebSocket. -/
def agree (config : WebSocketConfig) (r : Request) : Except UpgradeError Agreement := do
  let key ← clientKey r
  let compressed := agreesToCompress config r
  let response := Response.switchingProtocols "websocket"
  let headers := response.headers.insert "Sec-Websocket-Accept" (acceptKey key)
  let headers :=
    if compressed then headers.insert "Sec-Websocket-Extensions" agreedExtension else headers
  return { key, compressed, response := { response with headers } }

end HttpServer.Handshake
