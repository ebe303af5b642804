import HttpServer.Tunnel.Connect
import HttpServer.WebSocket.Echo

/-!
# What the server has to offer

A greeting at the root, an echo of each request as it was understood, a WebSocket that sends messages
back, and tunnels.
-/

namespace HttpServer.Service

/-- The greeting. -/
def greeting : String := "Hello from tern\n"

/-- The fields of a request, one on each line, a blank line, and its body. -/
def fieldsAndBody (r : Request) : Bytes :=
  let lines := r.headers.fields.map fun (name, value) => name ++ ": " ++ value ++ "\n"
  Utf8.ofText (String.join lines ++ "\n") ++ r.body.getD []

/-- A version in two numbers. -/
def versionText (v : Version) : String :=
  toString v.major ++ "." ++ toString v.minor

/-- A request as it was understood: its line, its fields, and its body. -/
def echo (r : Request) : Bytes :=
  Utf8.ofText (r.method.name ++ " " ++ r.target ++ " HTTP/" ++ versionText r.version ++ "\n") ++
    fieldsAndBody r

/-- Answer a request by its path. -/
def route [Deflate.Codec] (socket : WebSocketConfig) (dial : Tunnel.Dialer) : Handler := fun r =>
  .ok (
    if r.method = .connect then Tunnel.connect dial r
    else
      match r.path with
      | "/" => .respond (Response.text (Utf8.ofText greeting))
      | "/echo" => .respond (Response.text (echo r))
      | "/ws" => WebSocket.upgrade socket none r
      | _ => .respond Response.notFound)

end HttpServer.Service
