import HttpServer.Text.Line
import HttpServer.Transport.Inbound

/-!
# Connections — reading requests off a stream

A connection keeps the bytes that were read but not used yet in front of the stream they came from, so that
nothing a client sent ahead is lost.  Lines and bodies are taken from the front of the two together.

The view is `Connection.remaining`, the buffered bytes followed by those still to come:

* `remaining_of_fill` — reading more leaves it as it is;
* `remaining_of_readLine` — a line and its terminator come off its front;
* `remaining_of_readExact` — so do the bytes of a body.

A call that fails leaves it as it is too; only a line that is too long does not promise that.  The end of a line is
searched once: when more bytes have come, the search goes on behind those that were there before.
-/

namespace HttpServer

/-- The least number of bytes that one read asks for. -/
def minReadSize : Nat := 1024

/-- A stream with the bytes that were read ahead. -/
structure Connection where
  buffered : Bytes := []
  inbound : Inbound := {}
  /-- Bytes that one read asks for, if it is more than the least number. -/
  readSize : Nat := 4096
  /-- Bytes for which the buffer has more room than a read asks for, at each read to come. -/
  slack : List Nat := []
  deriving DecidableEq, Repr

namespace Connection

/-- All bytes that have not been used yet. -/
def remaining (c : Connection) : Bytes :=
  c.buffered ++ c.inbound.remaining

/-- Read into the buffer, in which room was made for `n` bytes; a read takes what the buffer has room for.  The result
is the number of bytes that came, and zero says that the stream has ended. -/
def fill (n : Nat) (c : Connection) : Except TransportError Nat × Connection :=
  match c.inbound.read (n + c.slack.headD 0) with
  | .error e => (.error e, c)
  | .ok (bytes, inbound) =>
    (.ok bytes.length, { c with buffered := c.buffered ++ bytes, inbound, slack := c.slack.tail })

theorem remaining_of_fill {n : Nat} {c c' : Connection} {r : Except TransportError Nat}
    (h : c.fill n = (r, c')) : c'.remaining = c.remaining := by
  unfold fill at h
  split at h
  · simp only [Prod.mk.injEq] at h
    obtain ⟨-, rfl⟩ := h
    rfl
  · rename_i bytes inbound hRead
    simp only [Prod.mk.injEq] at h
    obtain ⟨-, rfl⟩ := h
    simp [remaining, Inbound.remaining_of_read hRead]

theorem inbound_of_fill {n k : Nat} {c c' : Connection} (h : c.fill n = (.ok k, c')) :
    c.inbound.remaining.length = k + c'.inbound.remaining.length := by
  unfold fill at h
  split at h
  · simp at h
  · rename_i bytes inbound hRead
    simp only [Prod.mk.injEq, Except.ok.injEq] at h
    obtain ⟨rfl, rfl⟩ := h
    simp [Inbound.remaining_of_read hRead]

theorem buffered_of_fill {n k : Nat} {c c' : Connection} (h : c.fill n = (.ok k, c')) :
    ∃ bytes, c'.buffered = c.buffered ++ bytes := by
  unfold fill at h
  split at h
  · simp at h
  · rename_i bytes inbound hRead
    obtain ⟨-, rfl⟩ := Prod.mk.inj h
    exact ⟨bytes, rfl⟩

/-- Take one line when the first `scanned` bytes of the buffer were searched before. -/
def readLineFrom (limit scanned : Nat) (c : Connection) : Except TransportError (Option Bytes) × Connection :=
  match cutFirst lineFeed (c.buffered.drop scanned) with
  | some (part, rest) =>
    let line := stripReturn (c.buffered.take scanned ++ part)
    (.ok (if line.length ≤ limit then some line else none), { c with buffered := rest })
  | none =>
    if limit + 1 < c.buffered.length then (.ok none, c)
    else
      match _ : c.fill (max c.readSize minReadSize) with
      | (.error e, c') => (.error e, c')
      | (.ok 0, c') => (.error .endOfStream, c')
      | (.ok (_ + 1), c') => readLineFrom limit c.buffered.length c'
termination_by c.inbound.remaining.length
decreasing_by
  have := inbound_of_fill (by assumption)
  omega

/-- Take one line, without its line feed and a carriage return before it.  A line of more than `limit` bytes
is answered by `none`, at the latest when the buffer holds so many bytes that no terminator can save it. -/
def readLine (limit : Nat) (c : Connection) : Except TransportError (Option Bytes) × Connection :=
  c.readLineFrom limit 0

/-- Take exactly `n` bytes. -/
def readExact (n : Nat) (c : Connection) : Except TransportError Bytes × Connection :=
  if n ≤ c.buffered.length then (.ok (c.buffered.take n), { c with buffered := c.buffered.drop n })
  else
    match _ : c.fill (n - c.buffered.length) with
    | (.error e, c') => (.error e, c')
    | (.ok 0, c') => (.error .endOfStream, c')
    | (.ok (_ + 1), c') => readExact n c'
termination_by c.inbound.remaining.length
decreasing_by
  have := inbound_of_fill (by assumption)
  omega

/-- Whether at least one more byte is there; it is not at a clean end. -/
def waitReadable (c : Connection) : Except TransportError Bool × Connection :=
  if c.buffered.isEmpty then
    match c.fill (max c.readSize minReadSize) with
    | (.error e, c') => (.error e, c')
    | (.ok n, c') => (.ok (0 < n), c')
  else (.ok true, c)

/-- Everything that has not been used yet, if the stream ends cleanly. -/
def drain (c : Connection) : Except TransportError Bytes :=
  c.inbound.drain.map (c.buffered ++ ·)

/-- Let one more chunk arrive. -/
def feed (c : Connection) (chunk : Bytes) : Connection :=
  { c with inbound := c.inbound.feed chunk }

/-- Waiting uses nothing up. -/
theorem remaining_of_waitReadable {c c' : Connection} {r : Except TransportError Bool}
    (h : c.waitReadable = (r, c')) : c'.remaining = c.remaining := by
  unfold waitReadable at h
  split at h
  · split at h
    · rename_i hFill
      simp only [Prod.mk.injEq] at h
      rw [← h.2, remaining_of_fill hFill]
    · rename_i hFill
      simp only [Prod.mk.injEq] at h
      rw [← h.2, remaining_of_fill hFill]
  · simp only [Prod.mk.injEq] at h
    rw [← h.2]

/-- A line that was read came off the front together with at least one byte that ends it. -/
theorem remaining_of_readLine {limit : Nat} {c c' : Connection} {line : Bytes}
    (h : c.readLine limit = (.ok (some line), c')) :
    ∃ raw, line = stripReturn raw ∧ c.remaining = raw ++ lineFeed :: c'.remaining := by
  -- Where the search went on from has no say in what comes off the front.
  unfold readLine at h
  generalize 0 = scanned at h
  fun_induction readLineFrom limit scanned c with
  | case1 scanned c part rest hCut stripped =>
    simp only [Prod.mk.injEq, Except.ok.injEq] at h
    obtain ⟨hLine, rfl⟩ := h
    split at hLine
    · simp only [Option.some.injEq] at hLine
      have hBuffered : c.buffered.take scanned ++ (part ++ lineFeed :: rest) = c.buffered := by
        rw [← cutFirst_eq_some hCut, List.take_append_drop]
      refine ⟨c.buffered.take scanned ++ part, hLine.symm, ?_⟩
      calc c.remaining = (c.buffered.take scanned ++ (part ++ lineFeed :: rest)) ++ c.inbound.remaining := by
            rw [hBuffered, remaining]
        _ = _ := by simp [remaining]
    · simp at hLine
  | case2 => simp at h
  | case3 => simp at h
  | case4 => simp at h
  | case5 scanned c hCut hShort n c₁ hFill ih =>
    rw [← remaining_of_fill hFill]
    exact ih h

/-- The bytes of a body came off the front. -/
theorem remaining_of_readExact {n : Nat} {c c' : Connection} {bytes : Bytes}
    (h : c.readExact n = (.ok bytes, c')) : c.remaining = bytes ++ c'.remaining := by
  fun_induction readExact n c with
  | case1 c hEnough =>
    simp only [Prod.mk.injEq, Except.ok.injEq] at h
    obtain ⟨rfl, rfl⟩ := h
    simp [remaining, ← List.append_assoc, List.take_append_drop]
  | case2 => simp at h
  | case3 => simp at h
  | case4 c hFew k c₁ hFill ih =>
    rw [← remaining_of_fill hFill]
    exact ih h

end Connection
end HttpServer
