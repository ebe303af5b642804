import HttpServer.Deflate.Stored
import HttpServer.Service.CommandLine
import HttpServer.Service.Conversation
import Std.Async.DNS
import Std.Async.Signal
import Std.Async.TCP
import Std.Async.Timer
import Std.Sync.CancellationToken

/-!
# The program

It reads its command line, checks what it needs, listens, and serves until it is interrupted.  Then it takes
no more peers, and gives those that are being served some time to finish.

What peers are told is settled by their `Service.Conversation`, and what goes through a tunnel by its `Relay`.
What is left to do here is to move bytes: read while a session waits, write what is new, reach the places that
tunnels lead to, and keep the time.

Encryption is not part of this program: with a certificate it only checks that the certificate and its key are
sound.  Messages on WebSockets are compressed with stored blocks.
-/

namespace HttpServer.Program

open Std.Async Std.Net
open Service (Conversation WaitEnd)

attribute [local instance] Deflate.Codec.stored

/-- A socket of a peer, or of a place that a tunnel leads to. -/
abbrev Socket := TCP.Socket.Client

/-- What all connections share. -/
structure Shared where
  config : ServerConfig
  socketConfig : WebSocketConfig
  /-- Cancelled when the server shuts down. -/
  stop : Std.CancellationToken
  /-- How many peers are being served. -/
  active : IO.Ref Nat

/-- Bytes that one read asks for. -/
def readSize : UInt64 := 65536

/-- For how long a place is dialled, in milliseconds. -/
def dialTimeout : Nat := 10000

/-- Milliseconds as a duration. -/
def duration (ms : Nat) : Std.Time.Millisecond.Offset :=
  Std.Time.Millisecond.Offset.ofNat ms

/-- The time in milliseconds since the beginning of 1970. -/
def now : IO Int := do
  return (← Std.Time.Timestamp.now).toMillisecondsSinceUnixEpoch.val

/-- Run something for so many milliseconds at most; `none` when they are over, or when it fails. -/
def within {α : Type} (ms : Option Nat) (act : Async α) : Async (Option α) := do
  let attempt : Async (Option α) := try some <$> act catch _ => return none
  match ms with
  | none => attempt
  | some ms => Async.race attempt do
      sleep (duration ms)
      return none

/-! ## Places -/

/-- Host and port of an address, the host without brackets. -/
def hostAndPort? (address : String) : Option (String × UInt16) := do
  let (host, port) ← cutLast ':' address.toList
  let port ← readDecimal? 65535 port
  return (String.ofList (host.filter fun c => c != '[' && c != ']'), port.toUInt16)

/-- An address with a port. -/
def socketAddress (port : UInt16) : IPAddr → SocketAddress
  | .v4 addr => .v4 { addr, port }
  | .v6 addr => .v6 { addr, port }

/-- Connect to the first of some places that can be reached. -/
def connectFirst : List SocketAddress → Async (Option Socket)
  | [] => return none
  | address :: rest => do
    let socket ← TCP.Socket.Client.mk
    try
      socket.connect address
      socket.noDelay
      return some socket
    catch _ => connectFirst rest

/-- Connect to a place. -/
def dial (address : String) : Async (Option Socket) := do
  match hostAndPort? address with
  | none => return none
  | some (host, port) =>
    let reached ← within (some dialTimeout) do
      let places ← DNS.getAddrInfo host (toString port)
      connectFirst (places.toList.map (socketAddress port))
    return reached.join

/-! ## Peers -/

/-- Write some bytes, if there are any. -/
def sendAll (socket : Socket) (bytes : Bytes) : Async Unit :=
  if bytes.isEmpty then return () else socket.send ⟨bytes.toArray⟩

/-- What has happened to a relay when one of its ends was read. -/
def relayEvent (source : Side) : Option ByteArray → Relay.Event
  | none => .finish source .closed
  | some bytes => .arrive source bytes.toList

/-- Carry out what a relay does.  As long as it goes on it holds nothing back, so it begins anew with each event. -/
def relay (client remote : Socket) : Async Unit := do
  repeat
    let event ← Selectable.one #[
      .case (client.recvSelector readSize) fun bytes => return relayEvent .client bytes,
      .case (remote.recvSelector readSize) fun bytes => return relayEvent .remote bytes]
    let r := (({} : Relay).perform event).settle
    sendAll remote (r.delivered .remote)
    sendAll client (r.delivered .client)
    if r.fromClient.shut then remote.shutdown
    if r.fromRemote.shut then client.shutdown
    if r.isOver then return

/-- Wait for a peer. -/
def await (shared : Shared) (client : Socket) (isStopping : Bool) (ms : Option Nat) : Async WaitEnd := do
  let receive : Selectable WaitEnd :=
    .case (client.recvSelector readSize) fun bytes => return .received (bytes.map ByteArray.toList)
  let stop : Selectable WaitEnd := .case shared.stop.selector fun _ => return .stopped
  let cases := if isStopping then #[receive] else #[receive, stop]
  match ms with
  | none => Selectable.one cases
  | some ms => Selectable.one (cases.push (.case (← Selector.sleep (duration ms)) fun _ => return .expired))

/-- Converse with a peer until its session ends. -/
def converse (shared : Shared) (client : Socket) : Async Unit := do
  let mut c : Conversation Socket := {}
  repeat
    let time ← now
    let setting := c.setting shared.config shared.socketConfig time
    let r := c.peer.session setting
    if let some address := c.undialled? r then
      c := c.withDialled address (← dial address)
    else
      let sent ← within shared.config.writeTimeout (sendAll client (c.peer.unread r))
      if sent.isNone then return
      if let some (remote, bytes) := c.tunnel? r then
        sendAll remote bytes
        relay client remote
        return
      if !r.1.isWaiting then
        client.shutdown
        return
      c := c.advance time r
      let e ← await shared client c.peer.lastRequest.isSome (c.timeLeft? shared.config time r)
      c := c.after setting e

/-- Serve a peer, and count it meanwhile. -/
def serve (shared : Shared) (client : Socket) : Async Unit := do
  shared.active.modify (· + 1)
  try
    client.noDelay
    converse shared client
  catch _ => pure ()
  shared.active.modify (· - 1)

/-- Accept peers until the server shuts down. -/
def acceptPeers (shared : Shared) (listener : TCP.Socket.Server) : Async Unit := do
  repeat
    let accepted ← Selectable.one #[
      .case listener.acceptSelector fun client => return some client,
      .case shared.stop.selector fun _ => return none]
    match accepted with
    | none => return
    | some client => background (serve shared client)

/-- How often it is looked whether everybody is gone, in milliseconds. -/
def drainInterval : Nat := 20

/-- Wait until nobody is being served any more, for so many milliseconds at most. -/
def drain (shared : Shared) (ms : Nat) : Async Unit := do
  for _ in [0:ms / drainInterval] do
    if (← shared.active.get) == 0 then return
    sleep (duration drainInterval)

/-! ## Starting -/

/-- Why a file cannot be read, in the words of the operating system. -/
def unreadableReason : IO.Error → String
  | .noFileOrDirectory .. => "No such file or directory (os error 2)"
  | .permissionDenied .. => "Permission denied (os error 13)"
  | e => toString e

/-- Read some files; the answer finds their contents by their paths. -/
def readFiles (paths : List String) : IO CommandLine.FileReader := do
  let contents ← paths.mapM fun (path : String) => do
    try
      return (path, Except.ok (← IO.FS.readFile path))
    catch e => return (path, Except.error (unreadableReason e))
  return fun path => (contents.lookup path).getD (.error "the file was not read")

/-- Tell somebody why the program ends. -/
def fail (message : String) (code : CommandLine.ExitCode) : IO UInt32 := do
  IO.eprintln ("error: " ++ message)
  return code.number.toUInt32

/-- Listen on an address with a backlog that is long enough for a crowd. -/
def listenOn (address : SocketAddress) : IO TCP.Socket.Server := do
  let listener ← TCP.Socket.Server.mk
  listener.bind address
  listener.listen 1024
  return listener

/-- The address that the command line names. -/
def listenAddress? (o : CommandLine.Options) : Option SocketAddress :=
  (hostAndPort? (o.host ++ ":" ++ toString o.port)).bind fun (host, port) =>
    let address := (IPv4Addr.ofString host).map IPAddr.v4 <|> (IPv6Addr.ofString host).map IPAddr.v6
    address.map (socketAddress port)

/-- Serve until somebody interrupts the program. -/
def serveUntilInterrupted (o : CommandLine.Options) (listener : TCP.Socket.Server) : IO Unit := do
  let stop ← Std.CancellationToken.new
  let shared : Shared :=
    { config := o.serverConfig, socketConfig := o.socketConfig, stop, active := ← IO.mkRef 0 }
  let interrupt ← Signal.Waiter.mk .sigint false
  Async.block do
    background do
      Selectable.one #[.case interrupt.selector fun _ => stop.cancel]
    acceptPeers shared listener
    drain shared (o.shutdownGraceSecs * CommandLine.msPerSec)

/-- Start a server. -/
def start (o : CommandLine.Options) : IO UInt32 := do
  match o.check (← readFiles ([o.tlsCert, o.tlsKey].filterMap id)), listenAddress? o with
  | .error e, _ => fail e.message .failure
  | .ok (some _), _ => fail "the certificate is sound, but this program does not encrypt" .failure
  | .ok none, none => fail CommandLine.StartError.invalidAddress.message .failure
  | .ok none, some address =>
    try
      serveUntilInterrupted o (← listenOn address)
      return CommandLine.ExitCode.success.number.toUInt32
    catch e => fail (toString e) .failure

end HttpServer.Program

/-- Run the program with the words of its command line. -/
def main (words : List String) : IO UInt32 := do
  match HttpServer.CommandLine.parse words with
  | .error .help =>
    IO.print HttpServer.CommandLine.usage
    return HttpServer.CommandLine.ExitCode.success.number.toUInt32
  | .error (.misuse e) => HttpServer.Program.fail e.message .misuse
  | .ok o => HttpServer.Program.start o
