import HttpServer.Request

/-!
# Tunnels — where a `CONNECT` request wants to go
-/

namespace HttpServer.Tunnel

/-- The host and port that a request asks to be connected with: its `Host`, or else the authority of its
target. -/
def destination (r : Request) : Except UpgradeError String :=
  if !r.version.noHigherThan .http11 then .error .tunnelProtocol
  else if r.method ≠ .connect then .error .tunnelMethod
  else
    let host := trimText ((r.header? "Host").getD "")
    let host := if host.isEmpty then r.url.authority else host
    match Url.parse host with
    | .error _ => .error .tunnelHost
    | .ok url =>
      if url.host.isEmpty || url.port == 0 || !url.path.isEmpty then .error .tunnelHost else .ok host

end HttpServer.Tunnel
