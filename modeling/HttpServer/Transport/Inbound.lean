import HttpServer.Text.Utf8
import HttpServer.Transport.Error

/-!
# What a peer sends

The bytes of a peer arrive in chunks, and one read takes bytes of one chunk only.  Behind the last chunk the
stream either ends cleanly or fails, and it does so at every further read.

The view of a stream is `Inbound.remaining`, the bytes that are still to come: `remaining_of_read` says that
a read takes its bytes off the front of them, so how the bytes were cut is a matter of how often one has to
read, not of what is read.
-/

namespace HttpServer

/-- What comes behind the last chunk. -/
inductive StreamEnd where
  | closed
  | failed (e : TransportError)
  deriving DecidableEq, Repr

/-- The bytes that a peer has yet to deliver. -/
structure Inbound where
  chunks : List Bytes := []
  ending : StreamEnd := .closed
  deriving DecidableEq, Repr

namespace Inbound

/-- The bytes still to come, whatever their chunks. -/
def remaining (s : Inbound) : Bytes :=
  s.chunks.flatten

/-- Take at most `n` bytes of the first chunk that is not empty; `none` when there is no such chunk. -/
def takeChunk (n : Nat) : List Bytes → Option (Bytes × List Bytes)
  | [] => none
  | [] :: chunks => takeChunk n chunks
  | (b :: bs) :: chunks => some ((b :: bs).take n, (b :: bs).drop n :: chunks)

/-- One read of at most `n` bytes.  At a clean end it yields nothing. -/
def read (n : Nat) (s : Inbound) : Except TransportError (Bytes × Inbound) :=
  match takeChunk n s.chunks with
  | some (bytes, chunks) => .ok (bytes, { s with chunks })
  | none =>
    match s.ending with
    | .closed => .ok ([], { s with chunks := [] })
    | .failed e => .error e

/-- Everything that is still to come, if the stream ends cleanly. -/
def drain (s : Inbound) : Except TransportError Bytes :=
  match s.ending with
  | .closed => .ok s.remaining
  | .failed e => .error e

/-- Let one more chunk arrive. -/
def feed (s : Inbound) (chunk : Bytes) : Inbound :=
  { s with chunks := s.chunks ++ [chunk] }

theorem flatten_of_takeChunk {n : Nat} {chunks chunks' : List Bytes} {bytes : Bytes}
    (h : takeChunk n chunks = some (bytes, chunks')) : chunks.flatten = bytes ++ chunks'.flatten := by
  induction chunks with
  | nil => simp [takeChunk] at h
  | cons chunk chunks ih =>
    cases chunk with
    | nil => simpa using ih h
    | cons b bs =>
      simp only [takeChunk, Option.some.injEq, Prod.mk.injEq] at h
      obtain ⟨rfl, rfl⟩ := h
      simp only [List.flatten_cons, ← List.append_assoc, List.take_append_drop]

theorem flatten_of_takeChunk_eq_none {n : Nat} {chunks : List Bytes} (h : takeChunk n chunks = none) :
    chunks.flatten = [] := by
  induction chunks with
  | nil => rfl
  | cons chunk chunks ih =>
    cases chunk with
    | nil => simpa using ih h
    | cons b bs => simp [takeChunk] at h

/-- A read takes its bytes off the front of what is still to come. -/
theorem remaining_of_read {n : Nat} {s s' : Inbound} {bytes : Bytes} (h : s.read n = .ok (bytes, s')) :
    s.remaining = bytes ++ s'.remaining := by
  unfold read at h
  split at h
  · rename_i bs chunks hChunk
    simp only [Except.ok.injEq, Prod.mk.injEq] at h
    obtain ⟨rfl, rfl⟩ := h
    exact flatten_of_takeChunk hChunk
  · rename_i hChunk
    split at h
    · simp only [Except.ok.injEq, Prod.mk.injEq] at h
      obtain ⟨rfl, rfl⟩ := h
      simp [remaining, flatten_of_takeChunk_eq_none hChunk]
    · simp at h

end Inbound
end HttpServer
