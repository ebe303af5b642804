import HttpServer.Connection
import HttpServer.Transport.Outbound

/-!
# Upgraded connections — the raw stream of a hijacker

When a handler takes a connection over, it gets the stream together with the bytes that the session had read
ahead.  A read takes from those first and turns to the stream only when they are used up, so the bytes that
come out are exactly those that had not been used.
-/

namespace HttpServer

/-- A stream in the hands of a hijacker, with the bytes that were read ahead. -/
structure Upgraded where
  buffered : Bytes := []
  inbound : Inbound := {}
  outbound : Outbound := {}
  deriving DecidableEq, Repr

namespace Upgraded

/-- All bytes that have not been used yet. -/
def remaining (u : Upgraded) : Bytes :=
  u.buffered ++ u.inbound.remaining

/-- One read of at most `n` bytes. -/
def read (n : Nat) (u : Upgraded) : Except TransportError (Bytes × Upgraded) :=
  if u.buffered.isEmpty then
    (u.inbound.read n).map fun (bytes, inbound) => (bytes, { u with inbound })
  else .ok (u.buffered.take n, { u with buffered := u.buffered.drop n })

/-- Write some bytes to the stream. -/
def write (bs : Bytes) (u : Upgraded) : Except TransportError Upgraded :=
  (u.outbound.write bs).map fun outbound => { u with outbound }

/-- Everything that has not been used yet, if the stream ends cleanly. -/
def drain (u : Upgraded) : Except TransportError Bytes :=
  u.inbound.drain.map (u.buffered ++ ·)

/-- Let one more chunk arrive. -/
def feed (u : Upgraded) (chunk : Bytes) : Upgraded :=
  { u with inbound := u.inbound.feed chunk }

/-- How many bytes had been read ahead. -/
def describe (u : Upgraded) : String :=
  "Upgraded \x7b buffered: " ++ toString u.buffered.length ++ " \x7d"

theorem remaining_of_read {n : Nat} {u u' : Upgraded} {bytes : Bytes} (h : u.read n = .ok (bytes, u')) :
    u.remaining = bytes ++ u'.remaining := by
  unfold read at h
  split at h
  · rename_i hEmpty
    cases hRead : u.inbound.read n with
    | error e => simp [hRead, Except.map] at h
    | ok r =>
      obtain ⟨bs, inbound⟩ := r
      simp only [hRead, Except.map, Except.ok.injEq, Prod.mk.injEq] at h
      obtain ⟨rfl, rfl⟩ := h
      simp [remaining, List.isEmpty_iff.mp hEmpty, Inbound.remaining_of_read hRead]
  · simp only [Except.ok.injEq, Prod.mk.injEq] at h
    obtain ⟨rfl, rfl⟩ := h
    simp [remaining, ← List.append_assoc, List.take_append_drop]

end Upgraded

/-- Give up the request framing and keep the bytes. -/
def Connection.toUpgraded (c : Connection) : Upgraded :=
  { buffered := c.buffered, inbound := c.inbound }

end HttpServer
