import HttpServer.Proofs.ByteReader

/-!
# The requests of a stream

A client that sends many requests down one connection cannot choose how the network cuts its bytes, and the
server chooses how many it reads at a time, more where its buffer has room.  Neither choice shows: `readAll` lists
the requests of a connection, each with the bytes that are left behind it, and ends with the reason why there is no
further one, and `readAll_eq_of_flatten_eq` says that this list is a matter of the bytes and of the end of the stream
alone.
-/

namespace HttpServer
namespace Connection

/-- A connection on which nothing has been read yet. -/
def fresh (readSize : Nat) (inbound : Inbound) (slack : List Nat := []) : Connection :=
  { inbound, readSize, slack }

/-- Read requests until one cannot be read: all of them, each with the bytes left behind it, and why there are no
more.  This ends because a request takes at least one byte. -/
def readAll (limits : Limits) (c : Connection) : List (Request × Bytes) × Error :=
  match _ : c.readRequest limits with
  | (.error e, _) => ([], e)
  | (.ok request, c') =>
    let (requests, e) := readAll limits c'
    ((request, c'.remaining) :: requests, e)
termination_by c.remaining.length
decreasing_by
  obtain ⟨b, taken, hTaken⟩ := remaining_of_readRequest (by assumption)
  simp only [hTaken, List.length_append, List.length_cons]
  omega

variable {limits : Limits} {c c' d d' : Connection}

theorem readAll_of_error {e : Error} (h : c.readRequest limits = (.error e, c')) :
    c.readAll limits = ([], e) := by
  rw [readAll]
  split <;> simp_all

theorem readAll_of_request {request : Request} (h : c.readRequest limits = (.ok request, c')) :
    c.readAll limits =
      ((request, c'.remaining) :: (c'.readAll limits).1, (c'.readAll limits).2) := by
  rw [readAll]
  split <;> simp_all

/-- Connections with the same bytes and the same end give the same requests.  The induction is on the requests of
the first; both connections are left with the same bytes and the same end again by each of them. -/
theorem readAll_eq_of_remaining_eq (hRemaining : c.remaining = d.remaining)
    (hEnding : c.inbound.ending = d.inbound.ending) : c.readAll limits = d.readAll limits := by
  have hOutcome : outcome (c.readRequest limits) = outcome (d.readRequest limits) := by
    rw [outcome_readRequest, outcome_readRequest, hRemaining, hEnding]
  fun_induction readAll limits c generalizing d with
  | case1 c e c' hRead =>
    rw [hRead] at hOutcome
    rcases hReadD : d.readRequest limits with ⟨e' | request, d'⟩
    · rw [hReadD] at hOutcome
      simp only [outcome, Except.error.injEq] at hOutcome
      rw [readAll_of_error hReadD, hOutcome]
    · rw [hReadD] at hOutcome
      simp [outcome] at hOutcome
  | case2 c request c' hRead requests e hRest ih =>
    rw [hRead] at hOutcome
    rcases hReadD : d.readRequest limits with ⟨e' | request', d'⟩
    · rw [hReadD] at hOutcome
      simp [outcome] at hOutcome
    · rw [hReadD] at hOutcome
      simp only [outcome, Except.ok.injEq, Prod.mk.injEq] at hOutcome
      obtain ⟨rfl, hLeft⟩ := hOutcome
      -- Both are left with the same bytes and the same end, which is all that the next request depends on.
      have hEnd : c'.inbound.ending = d'.inbound.ending := by
        rw [ending_of_readRequest hRead, ending_of_readRequest hReadD, hEnding]
      have hLeftOutcome : outcome (c'.readRequest limits) = outcome (d'.readRequest limits) := by
        rw [outcome_readRequest, outcome_readRequest, hLeft, hEnd]
      rw [readAll_of_request hReadD, ← ih hLeft hEnd hLeftOutcome, hLeft, hRest]

/-- However the bytes of a stream are cut, however many of them are read at a time, and however much room there is
for more, the requests are the same, the bytes left behind each of them are the same, and so is the reason why there
are no more. -/
theorem readAll_eq_of_flatten_eq (limits : Limits) (chunks₁ chunks₂ : List Bytes) (ending : StreamEnd)
    (readSize₁ readSize₂ : Nat) (slack₁ slack₂ : List Nat) (h : chunks₁.flatten = chunks₂.flatten) :
    (fresh readSize₁ { chunks := chunks₁, ending } slack₁).readAll limits =
      (fresh readSize₂ { chunks := chunks₂, ending } slack₂).readAll limits := by
  apply readAll_eq_of_remaining_eq
  · simpa [fresh, remaining, Inbound.remaining] using h
  · rfl

/-- Two requests, cut between a carriage return and its line feed and inside a body, and in one piece. -/
theorem readAll_cut_in_three :
    let chunks := ["POST /a HTTP/1.1\r\nContent-Length: 3\r", "\n\r\nx", "yzGET /b HTTP/1.1\r\n\r\n"].map Utf8.ofText
    chunks.flatten = [chunks.flatten].flatten ∧
      (fresh 1 { chunks, ending := .failed .reset } [0, 3000]).readAll {} =
        (fresh 4096 { chunks := [chunks.flatten], ending := .failed .reset }).readAll {} := by
  intro chunks
  have hFlatten : chunks.flatten = [chunks.flatten].flatten := by simp
  exact ⟨hFlatten, readAll_eq_of_flatten_eq {} chunks [chunks.flatten] (.failed .reset) 1 4096 [0, 3000] [] hFlatten⟩

end Connection
end HttpServer
