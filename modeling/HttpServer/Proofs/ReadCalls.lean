import HttpServer.Proofs.ByteReader
import Mathlib.Data.List.Forall2

/-!
# Series of reads on one connection

Whoever holds a connection asks it for lines, for bytes by their number, and whether there is anything left, in any
order, and goes on asking behind a failure.  `ReadCall.onBytes` says what the answer to each of these calls is if all
the bytes that are left lie open, without a word on buffers, chunks and read sizes: the first line feed is looked for
among all of them.

A connection gives these answers (`Connection.answerAll_onBytes`), and it gives them to a whole series of calls, because
each call leaves the bytes that it should leave.  The exception is a line that is too long: it may be given up before
its end has arrived, so of the bytes behind it nothing is said, and a series ends there.
-/

namespace HttpServer

/-! ## Calls and answers -/

/-- What a connection is asked for. -/
inductive ReadCall where
  | line (limit : Nat)
  | exactly (n : Nat)
  | readable
  deriving DecidableEq, Repr

/-- What a connection answers. -/
inductive ReadAnswer where
  | line (line : Bytes)
  | tooLong
  | bytes (bytes : Bytes)
  | readable (isReadable : Bool)
  | failed (e : TransportError)
  deriving DecidableEq, Repr

/-- The bytes that an answer uses up: of a line also those that end it, of a failure none. -/
inductive ReadAnswer.Uses : ReadAnswer → Bytes → Prop where
  | line (line : Bytes) : Uses (.line line) (line ++ [lineFeed])
  | lineReturn (line : Bytes) : Uses (.line line) (line ++ [carriageReturn, lineFeed])
  | bytes (bytes : Bytes) : Uses (.bytes bytes) bytes
  | readable (isReadable : Bool) : Uses (.readable isReadable) []
  | failed (e : TransportError) : Uses (.failed e) []

/-- One call on a connection. -/
def Connection.answer (c : Connection) : ReadCall → ReadAnswer × Connection
  | .line limit =>
    match c.readLine limit with
    | (.error e, c') => (.failed e, c')
    | (.ok none, c') => (.tooLong, c')
    | (.ok (some line), c') => (.line line, c')
  | .exactly n =>
    match c.readExact n with
    | (.error e, c') => (.failed e, c')
    | (.ok bytes, c') => (.bytes bytes, c')
  | .readable =>
    match c.waitReadable with
    | (.error e, c') => (.failed e, c')
    | (.ok isReadable, c') => (.readable isReadable, c')

/-- A series of calls on a connection, up to the first line that is too long. -/
def Connection.answerAll (c : Connection) : List ReadCall → List ReadAnswer × Connection
  | [] => ([], c)
  | call :: calls =>
    match c.answer call with
    | (.tooLong, c') => ([.tooLong], c')
    | (answer, c') => (answer :: (c'.answerAll calls).1, (c'.answerAll calls).2)

/-! ## The answers of the bytes -/

namespace ReadCall

/-- The answer to a call when `bytes` are all that is left, and what it leaves of them.  For a line that is too long
these bytes have no meaning. -/
def onBytes (ending : StreamEnd) (bytes : Bytes) : ReadCall → ReadAnswer × Bytes
  | .line limit =>
    match bytes.idxOf? lineFeed with
    | some i =>
      if (stripReturn (bytes.take i)).length ≤ limit then
        (.line (stripReturn (bytes.take i)), bytes.drop (i + 1))
      else (.tooLong, bytes)
    | none => if limit + 1 < bytes.length then (.tooLong, bytes) else (.failed ending.failure, bytes)
  | .exactly n =>
    if n ≤ bytes.length then (.bytes (bytes.take n), bytes.drop n) else (.failed ending.failure, bytes)
  | .readable =>
    match bytes, ending with
    | _ :: _, _ => (.readable true, bytes)
    | [], .closed => (.readable false, bytes)
    | [], .failed e => (.failed e, bytes)

/-- The answers to a series of calls when `bytes` are all that is left, up to the first line that is too long. -/
def allOnBytes (ending : StreamEnd) (bytes : Bytes) : List ReadCall → List ReadAnswer × Bytes
  | [] => ([], bytes)
  | call :: calls =>
    match call.onBytes ending bytes with
    | (.tooLong, rest) => ([.tooLong], rest)
    | (answer, rest) => (answer :: (allOnBytes ending rest calls).1, (allOnBytes ending rest calls).2)

variable {ending : StreamEnd} {bytes rest : Bytes} {call : ReadCall} {calls : List ReadCall} {answer : ReadAnswer}

theorem allOnBytes_cons (h : call.onBytes ending bytes = (answer, rest)) (hShort : answer ≠ .tooLong) :
    allOnBytes ending bytes (call :: calls) =
      (answer :: (allOnBytes ending rest calls).1, (allOnBytes ending rest calls).2) := by
  cases answer <;> simp_all [allOnBytes]

/-- Before a line feed stands the line, with a carriage return behind it or without one. -/
theorem uses_line {raw line : Bytes} (h : stripReturn raw = line) :
    (ReadAnswer.line line).Uses (raw ++ [lineFeed]) := by
  rcases stripReturn_eq_iff.mp h with rfl | ⟨rfl, -⟩
  · simpa using ReadAnswer.Uses.lineReturn line
  · exact .line raw

/-- An answer and what it leaves make up the bytes that were there. -/
theorem uses_of_onBytes (h : call.onBytes ending bytes = (answer, rest)) (hShort : answer ≠ .tooLong) :
    ∃ piece, answer.Uses piece ∧ bytes = piece ++ rest := by
  cases call with
  | line limit =>
    simp only [onBytes] at h
    split at h
    · rename_i i hPlace
      have hCut := cutFirst_eq_map_idxOf? lineFeed bytes
      rw [hPlace] at hCut
      have hBytes := cutFirst_eq_some hCut
      split at h
      · obtain ⟨rfl, rfl⟩ := Prod.mk.inj h
        exact ⟨_, uses_line rfl, by simpa using hBytes⟩
      · exact absurd (Prod.mk.inj h).1.symm hShort
    · split at h
      · exact absurd (Prod.mk.inj h).1.symm hShort
      · obtain ⟨rfl, rfl⟩ := Prod.mk.inj h
        exact ⟨[], .failed _, rfl⟩
  | exactly n =>
    simp only [onBytes] at h
    split at h
    · obtain ⟨rfl, rfl⟩ := Prod.mk.inj h
      exact ⟨_, .bytes _, (List.take_append_drop n bytes).symm⟩
    · obtain ⟨rfl, rfl⟩ := Prod.mk.inj h
      exact ⟨[], .failed _, rfl⟩
  | readable =>
    simp only [onBytes] at h
    split at h
    all_goals
      obtain ⟨rfl, rfl⟩ := Prod.mk.inj h
    · exact ⟨[], .readable _, rfl⟩
    · exact ⟨[], .readable _, rfl⟩
    · exact ⟨[], .failed _, rfl⟩

end ReadCall

namespace Connection

variable {c c' : Connection} {call : ReadCall} {calls : List ReadCall} {answer : ReadAnswer}

/-! ## What a call leaves -/

/-- A line that could not be read has used nothing up. -/
theorem remaining_of_readLine_error {limit : Nat} {e : TransportError} (h : c.readLine limit = (.error e, c')) :
    c'.remaining = c.remaining := by
  unfold readLine at h
  generalize 0 = scanned at h
  fun_induction readLineFrom limit scanned c with
  | case1 => simp at h
  | case2 => simp at h
  | case3 scanned c hCut hShort e c₁ hFill =>
    obtain ⟨-, rfl⟩ := Prod.mk.inj h
    exact remaining_of_fill hFill
  | case4 scanned c hCut hShort c₁ hFill =>
    obtain ⟨-, rfl⟩ := Prod.mk.inj h
    exact remaining_of_fill hFill
  | case5 scanned c hCut hShort k c₁ hFill ih => rw [ih h, remaining_of_fill hFill]

/-- Bytes that did not come have used nothing up. -/
theorem remaining_of_readExact_error {n : Nat} {e : TransportError} (h : c.readExact n = (.error e, c')) :
    c'.remaining = c.remaining := by
  fun_induction readExact n c with
  | case1 => simp at h
  | case2 c hFew e c₁ hFill =>
    obtain ⟨-, rfl⟩ := Prod.mk.inj h
    exact remaining_of_fill hFill
  | case3 c hFew c₁ hFill =>
    obtain ⟨-, rfl⟩ := Prod.mk.inj h
    exact remaining_of_fill hFill
  | case4 c hFew k c₁ hFill ih => rw [ih h, remaining_of_fill hFill]

theorem ending_of_waitReadable {r : Except TransportError Bool} (h : c.waitReadable = (r, c')) :
    c'.inbound.ending = c.inbound.ending := by
  unfold waitReadable at h
  split at h
  · split at h
    all_goals
      rename_i hFill
      obtain ⟨-, rfl⟩ := Prod.mk.inj h
      exact ending_of_fill hFill
  · obtain ⟨-, rfl⟩ := Prod.mk.inj h
    rfl

theorem ending_of_answer (c : Connection) (call : ReadCall) :
    (c.answer call).2.inbound.ending = c.inbound.ending := by
  cases call with
  | line limit =>
    rcases hRead : c.readLine limit with ⟨e | _ | line, c'⟩
    all_goals simpa [Connection.answer, hRead] using ending_of_readLine hRead
  | exactly n =>
    rcases hRead : c.readExact n with ⟨e | bytes, c'⟩
    all_goals simpa [Connection.answer, hRead] using ending_of_readExact hRead
  | readable =>
    rcases hRead : c.waitReadable with ⟨e | isReadable, c'⟩
    all_goals simpa [Connection.answer, hRead] using ending_of_waitReadable hRead

/-! ## One call -/

/-- A call is answered as the bytes say, and leaves what they leave. -/
structure Agrees (c : Connection) (call : ReadCall) : Prop where
  answer : (c.answer call).1 = (call.onBytes c.inbound.ending c.remaining).1
  remaining : (c.answer call).1 ≠ .tooLong →
    (c.answer call).2.remaining = (call.onBytes c.inbound.ending c.remaining).2

/-- The line that is found in pieces is the one behind which the first line feed of all bytes stands. -/
theorem agrees_line (c : Connection) (limit : Nat) : c.Agrees (.line limit) := by
  have hLine := lineOutcome_readLine .headline limit c
  rw [takeLine, cutFirst_eq_map_idxOf?] at hLine
  rcases hRead : c.readLine limit with ⟨e | _ | line, c'⟩
  case error =>
    have hKept := remaining_of_readLine_error hRead
    constructor <;> grind [Connection.answer, lineOutcome, ReadCall.onBytes]
  case ok.none => constructor <;> grind [Connection.answer, lineOutcome, ReadCall.onBytes]
  case ok.some => constructor <;> grind [Connection.answer, lineOutcome, ReadCall.onBytes]

theorem agrees_exactly (c : Connection) (n : Nat) : c.Agrees (.exactly n) := by
  have hExact := outcome_readExact n c
  rw [takeExact] at hExact
  rcases hRead : c.readExact n with ⟨e | bytes, c'⟩
  case error =>
    have hKept := remaining_of_readExact_error hRead
    constructor <;> grind [Connection.answer, outcome, ReadCall.onBytes]
  case ok => constructor <;> grind [Connection.answer, outcome, ReadCall.onBytes]

theorem agrees_readable (c : Connection) : c.Agrees .readable := by
  rcases c.waitReadable_cases with ⟨c', hWait, hSome, hKept, -⟩ | ⟨c', hWait, hNone, hEnding⟩ |
    ⟨e, c', hWait, hNone, hEnding⟩
  · obtain ⟨b, bytes, hBytes⟩ := List.exists_cons_of_ne_nil hSome
    constructor <;> simp [Connection.answer, ReadCall.onBytes, hWait, hKept, hBytes]
  · have hKept := remaining_of_waitReadable hWait
    constructor <;> simp [Connection.answer, ReadCall.onBytes, hWait, hKept, hNone, hEnding]
  · have hKept := remaining_of_waitReadable hWait
    constructor <;> simp [Connection.answer, ReadCall.onBytes, hWait, hKept, hNone, hEnding]

/-- How the bytes come in has no say in what a call is answered. -/
theorem agrees (c : Connection) (call : ReadCall) : c.Agrees call := by
  cases call with
  | line limit => exact c.agrees_line limit
  | exactly n => exact c.agrees_exactly n
  | readable => exact c.agrees_readable

/-! ## Series of calls -/

theorem answerAll_cons (h : c.answer call = (answer, c')) (hShort : answer ≠ .tooLong) :
    c.answerAll (call :: calls) = (answer :: (c'.answerAll calls).1, (c'.answerAll calls).2) := by
  cases answer <;> simp_all [answerAll]

/-- **A connection answers as its bytes say.**  The answers to a series of calls are a matter of the bytes that have not
been used and of the end of the stream alone.  Unless a line was too long, the connection has used up just the bytes
that its answers speak of: these, followed by those that are left, are the bytes that were there at the beginning. -/
theorem answerAll_onBytes (c : Connection) (calls : List ReadCall) :
    (c.answerAll calls).1 = (ReadCall.allOnBytes c.inbound.ending c.remaining calls).1 ∧
      (.tooLong ∉ (c.answerAll calls).1 →
        (c.answerAll calls).2.remaining = (ReadCall.allOnBytes c.inbound.ending c.remaining calls).2 ∧
        ∃ pieces, List.Forall₂ ReadAnswer.Uses (c.answerAll calls).1 pieces ∧
          c.remaining = pieces.flatten ++ (c.answerAll calls).2.remaining) := by
  induction calls generalizing c with
  | nil => exact ⟨rfl, fun _ => ⟨rfl, [], .nil, rfl⟩⟩
  | cons call calls ih =>
    obtain ⟨hSame, hLeft⟩ := c.agrees call
    have hEnding := c.ending_of_answer call
    rcases hAnswer : c.answer call with ⟨answer, c'⟩
    rcases hBytes : call.onBytes c.inbound.ending c.remaining with ⟨answer', rest⟩
    simp only [hAnswer, hBytes] at hSame hLeft hEnding
    subst hSame
    by_cases hLong : answer = .tooLong
    · subst hLong
      simp [answerAll, ReadCall.allOnBytes, hAnswer, hBytes]
    · obtain rfl : c'.remaining = rest := hLeft hLong
      rw [answerAll_cons hAnswer hLong, ReadCall.allOnBytes_cons hBytes hLong, ← hEnding]
      obtain ⟨hAnswers, hUsed⟩ := ih c'
      refine ⟨by rw [hAnswers], fun hShort => ?_⟩
      simp only [List.mem_cons, not_or] at hShort
      obtain ⟨hRest, pieces, hPieces, hAll⟩ := hUsed hShort.2
      obtain ⟨piece, hPiece, hFront⟩ := ReadCall.uses_of_onBytes hBytes hLong
      exact ⟨hRest, piece :: pieces, .cons hPiece hPieces, by simp [hFront, ← hAll]⟩

/-- A line of two bytes is as long as it may be, and its end is cut between two chunks; more bytes are asked for than
there are, and those that are left are a line that is too long for the last call. -/
theorem answerAll_onBytes_across_chunks :
    let c : Connection :=
      { buffered := [0x61]
        inbound := { chunks := [[0x62, 0x0D], [0x0A, 0x63], [0x64, 0x65], [0x0A]], ending := .failed .reset } }
    let calls : List ReadCall := [.line 2, .exactly 1, .readable, .exactly 4]
    let answers : List ReadAnswer := [.line [0x61, 0x62], .bytes [0x63], .readable true, .failed .reset]
    (c.answerAll calls).1 = answers ∧ (c.answerAll calls).2.remaining = [0x64, 0x65, 0x0A] ∧
      (c.answerAll (calls ++ [.line 1, .readable])).1 = answers ++ [.tooLong] := by
  intro c calls answers
  obtain ⟨hAnswers, hUsed⟩ := answerAll_onBytes c calls
  obtain ⟨hLonger, -⟩ := answerAll_onBytes c (calls ++ [.line 1, .readable])
  have hBytes : ReadCall.allOnBytes c.inbound.ending c.remaining calls = (answers, [0x64, 0x65, 0x0A]) := by decide
  rw [hBytes] at hAnswers hUsed
  obtain ⟨hRest, -⟩ := hUsed (by rw [hAnswers]; decide)
  exact ⟨hAnswers, hRest, hLonger.trans (by decide)⟩

end Connection
end HttpServer
