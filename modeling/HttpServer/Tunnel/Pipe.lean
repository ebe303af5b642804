import HttpServer.Tunnel.Relay

/-!
# The two ends of a relay, from outside

What someone at an end can do: write, end the writing, read, or let go of the end.  After each of these the
relay copies all that it can.
-/

namespace HttpServer

/-- One end as its user has left it. -/
structure PipeEnd where
  /-- How many of the delivered bytes were read. -/
  read : Nat := 0
  /-- Whether the end was let go. -/
  gone : Bool := false
  deriving DecidableEq, Repr

/-- A relay with its two ends. -/
structure Pipe where
  relay : Relay := {}
  client : PipeEnd := {}
  remote : PipeEnd := {}
  deriving DecidableEq, Repr

/-- Why an end cannot be used as asked. -/
inductive PipeError where
  /-- The end was let go before. -/
  | closed
  /-- The stream ended before all bytes came. -/
  | endedEarly
  | transport (e : TransportError)
  deriving DecidableEq, Repr

namespace Pipe

/-- One end. -/
def atEnd (p : Pipe) : Side → PipeEnd
  | .client => p.client
  | .remote => p.remote

/-- Change one end. -/
def updateEnd (p : Pipe) (s : Side) (f : PipeEnd → PipeEnd) : Pipe :=
  match s with
  | .client => { p with client := f p.client }
  | .remote => { p with remote := f p.remote }

/-- Let something happen to the relay, and then let it copy. -/
def happen (p : Pipe) (events : List Relay.Event) : Pipe :=
  { p with relay := (p.relay.run events).settle }

/-- The delivered bytes that were not read yet. -/
def unread (p : Pipe) (s : Side) : Bytes :=
  (p.relay.delivered s).drop (p.atEnd s).read

/-- Refuse to use an end that was let go. -/
def ifOpen {α : Type} (p : Pipe) (s : Side) (k : Except PipeError α × Pipe) : Except PipeError α × Pipe :=
  if (p.atEnd s).gone then (.error .closed, p) else k

/-- Write at an end.  Nobody takes any bytes when the relay is over, or when the writing was ended. -/
def write (p : Pipe) (s : Side) (bs : Bytes) : Except PipeError Unit × Pipe :=
  p.ifOpen s <|
    if !bs.isEmpty && (p.relay.isOver || (p.relay.flow s).ending.isSome) then
      (.error (.transport .brokenPipe), p)
    else (.ok (), p.happen [.arrive s bs])

/-- End the writing at an end. -/
def halfClose (p : Pipe) (s : Side) : Except PipeError Unit × Pipe :=
  p.ifOpen s (.ok (), p.happen [.finish s .closed])

/-- Let go of an end: its writing ends, and nothing can be written to it any more. -/
def close (p : Pipe) (s : Side) : Except PipeError Unit × Pipe :=
  p.ifOpen s <|
    let p := p.happen [.finish s .closed, .obstruct s .brokenPipe]
    (.ok (), p.updateEnd s fun e => { e with gone := true })

/-- Read exactly `n` bytes at an end. -/
def read (p : Pipe) (s : Side) (n : Nat) : Except PipeError Bytes × Pipe :=
  p.ifOpen s <|
    let unread := p.unread s
    if n ≤ unread.length then (.ok (unread.take n), p.updateEnd s fun e => { e with read := e.read + n })
    else (.error .endedEarly, p.updateEnd s fun e => { e with read := e.read + unread.length })

/-- Read at an end until nothing more comes. -/
def readToEnd (p : Pipe) (s : Side) : Except PipeError Bytes × Pipe :=
  p.ifOpen s <|
    let unread := p.unread s
    (.ok unread, p.updateEnd s fun e => { e with read := e.read + unread.length })

end Pipe
end HttpServer
