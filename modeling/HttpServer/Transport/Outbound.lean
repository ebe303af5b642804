import HttpServer.Text.Utf8
import HttpServer.Transport.Error

/-!
# What is sent to a peer

Writing either appends all of its bytes or fails and appends none; writing nothing never fails.  The view of a
stream is `Outbound.written`, and `written_of_write` says what a write does to it.
-/

namespace HttpServer

/-- What was written so far, and what keeps more from being written. -/
structure Outbound where
  /-- The bytes of each write, those of the latest one first. -/
  writes : List Bytes := []
  failure : Option TransportError := none
  deriving DecidableEq, Repr

namespace Outbound

/-- All bytes that were written. -/
def written (s : Outbound) : Bytes :=
  s.writes.reverse.flatten

/-- Write some bytes. -/
def write (bs : Bytes) (s : Outbound) : Except TransportError Outbound :=
  match s.failure with
  | some e => if bs.isEmpty then .ok s else .error e
  | none => .ok { s with writes := bs :: s.writes }

theorem written_of_write {bs : Bytes} {s s' : Outbound} (h : s.write bs = .ok s') :
    s'.written = s.written ++ bs := by
  unfold write at h
  split at h
  · split at h
    · rename_i hEmpty
      simp only [Except.ok.injEq] at h
      rw [← h, List.isEmpty_iff.mp hEmpty, List.append_nil]
    · simp at h
  · simp only [Except.ok.injEq] at h
    rw [← h]
    simp [written]

end Outbound
end HttpServer
