import HttpServer.Request.Reader
import HttpServer.Proofs.Lines

/-!
# Reading requests from bytes

A connection reads in pieces: it looks for a line feed in what it has buffered, asks its stream for more, and
looks again.  Here the same requests are read from the whole byte string at once.  `takeLine`, `takeHeaderBlock`,
`takeBody` and `takeRequest` know nothing of buffers, chunks and read sizes; what they need to know of the
stream is how it ends.

`outcome_readRequest` says that the two readers agree: what a connection yields is a function of
`Connection.remaining` and of the end of its stream.  A failure says nothing about the bytes that are left,
because a line that is too long may be given up before its end has arrived.
-/

namespace HttpServer

/-- What is reported when more bytes are due and none come. -/
def StreamEnd.failure : StreamEnd → TransportError
  | .closed => .endOfStream
  | .failed e => e

/-! ## The reader of bytes -/

/-- The first line of the bytes, and what follows it.  Without a line feed, more than `limit + 1` bytes are too
many for a line, since only the last of them can be a carriage return that does not count. -/
def takeLine (which : Limit) (limit : Nat) (ending : StreamEnd) (bytes : Bytes) :
    Except Error (Bytes × Bytes) :=
  match cutFirst lineFeed bytes with
  | some (raw, rest) =>
    if (stripReturn raw).length ≤ limit then .ok (stripReturn raw, rest) else .error (.limitExceeded which)
  | none =>
    if limit + 1 < bytes.length then .error (.limitExceeded which) else .error (.network ending.failure)

theorem takeLine_eq_ok_iff {which : Limit} {limit : Nat} {ending : StreamEnd} {bytes line rest : Bytes} :
    takeLine which limit ending bytes = .ok (line, rest) ↔
      ∃ raw, bytes = raw ++ lineFeed :: rest ∧ lineFeed ∉ raw ∧ stripReturn raw = line ∧
        line.length ≤ limit := by
  unfold takeLine
  constructor
  · intro h
    split at h
    · rename_i raw after hCut
      obtain ⟨hBytes, hRaw⟩ := cutFirst_eq_some_iff.mp hCut
      split at h
      · rename_i hShort
        simp only [Except.ok.injEq, Prod.mk.injEq] at h
        obtain ⟨rfl, rfl⟩ := h
        exact ⟨raw, hBytes, hRaw, rfl, hShort⟩
      · simp at h
    · split at h <;> simp at h
  · rintro ⟨raw, hBytes, hRaw, rfl, hShort⟩
    rw [cutFirst_eq_some_iff.mpr ⟨hBytes, hRaw⟩]
    simp only [hShort, if_true]

/-- A line takes at least the line feed that ends it. -/
theorem length_of_takeLine {which : Limit} {limit : Nat} {ending : StreamEnd} {bytes line rest : Bytes}
    (h : takeLine which limit ending bytes = .ok (line, rest)) : rest.length < bytes.length := by
  obtain ⟨raw, rfl, -⟩ := takeLine_eq_ok_iff.mp h
  simp only [List.length_append, List.length_cons]
  omega

/-- The fields of a header block at the front of the bytes, and what follows its empty line. -/
def takeHeaderBlock (limits : Limits) (ending : StreamEnd) (block : HeaderBlock) (bytes : Bytes) :
    Except Error (Headers × Bytes) :=
  match _ : takeLine .headerLine limits.headerLine ending bytes with
  | .error e => .error e
  | .ok ([], rest) => .ok (block.headers, rest)
  | .ok (b :: line, rest) =>
    match block.push (b :: line) with
    | (.error e, _) => .error e
    | (.ok (), block) => takeHeaderBlock limits ending block rest
termination_by bytes.length
decreasing_by exact length_of_takeLine (by assumption)

section HeaderBlock

variable {limits : Limits} {ending : StreamEnd} {block : HeaderBlock} {bytes line rest : Bytes}

theorem takeHeaderBlock_of_error {e : Error}
    (h : takeLine .headerLine limits.headerLine ending bytes = .error e) :
    takeHeaderBlock limits ending block bytes = .error e := by
  rw [takeHeaderBlock]
  split <;> simp_all

theorem takeHeaderBlock_of_blank (h : takeLine .headerLine limits.headerLine ending bytes = .ok ([], rest)) :
    takeHeaderBlock limits ending block bytes = .ok (block.headers, rest) := by
  rw [takeHeaderBlock]
  split <;> simp_all

theorem takeHeaderBlock_of_line (h : takeLine .headerLine limits.headerLine ending bytes = .ok (line, rest))
    (hLine : line ≠ []) :
    takeHeaderBlock limits ending block bytes =
      match block.push line with
      | (.error e, _) => .error e
      | (.ok (), block) => takeHeaderBlock limits ending block rest := by
  rw [takeHeaderBlock]
  split <;> simp_all

end HeaderBlock

/-- The first `n` bytes, and what follows them. -/
def takeExact (n : Nat) (ending : StreamEnd) (bytes : Bytes) : Except TransportError (Bytes × Bytes) :=
  if n ≤ bytes.length then .ok (bytes.take n, bytes.drop n) else .error ending.failure

/-- A body of `length` bytes, and what follows it; the request has it only if its method carries one. -/
def takeBody (method : Method) (length : Nat) (ending : StreamEnd) (bytes : Bytes) :
    Except Error (Option Bytes × Bytes) :=
  if length = 0 then .ok (none, bytes)
  else
    match takeExact length ending bytes with
    | .error e => .error (.network e)
    | .ok (body, rest) => .ok (if method.mayHaveBody then some body else none, rest)

/-- The request at the front of the bytes, and what follows it. -/
def takeRequest (limits : Limits) (ending : StreamEnd) (bytes : Bytes) : Except Error (Request × Bytes) :=
  match takeLine .headline limits.headline ending bytes with
  | .error e => .error e
  | .ok (line, bytes) =>
    match Headline.parse line with
    | .error e => .error e
    | .ok headline =>
      match takeHeaderBlock limits ending { maxSize := limits.headerBlock } bytes with
      | .error e => .error e
      | .ok (headers, bytes) =>
        match Connection.checkHead limits headline headers with
        | .error e => .error e
        | .ok (headers, length) =>
          match takeBody headline.method length ending bytes with
          | .error e => .error e
          | .ok (body, bytes) =>
            .ok ({ method := headline.method, version := headline.version, target := headline.target,
                   url := headline.url, headers, body }, bytes)

/-! ## What one more read can find -/

namespace Inbound

theorem ne_nil_of_takeChunk {n : Nat} {chunks chunks' : List Bytes} {bytes : Bytes} (hn : 0 < n)
    (h : takeChunk n chunks = some (bytes, chunks')) : bytes ≠ [] := by
  induction chunks with
  | nil => simp [takeChunk] at h
  | cons chunk chunks ih =>
    cases chunk with
    | nil => exact ih h
    | cons b bs =>
      simp only [takeChunk, Option.some.injEq, Prod.mk.injEq] at h
      obtain ⟨rfl, -⟩ := h
      simp only [ne_eq, List.take_eq_nil_iff, not_or]
      exact ⟨by omega, by simp⟩

theorem ending_of_read {n : Nat} {s s' : Inbound} {bytes : Bytes} (h : s.read n = .ok (bytes, s')) :
    s'.ending = s.ending := by
  unfold read at h
  split at h
  · simp only [Except.ok.injEq, Prod.mk.injEq] at h
    rw [← h.2]
  · split at h
    · simp only [Except.ok.injEq, Prod.mk.injEq] at h
      rw [← h.2]
    · simp at h

/-- What a read of at least one byte does: it brings something, or there is nothing left. -/
theorem read_cases {n : Nat} (hn : 0 < n) (s : Inbound) :
    (∃ b bytes s', s.read n = .ok (b :: bytes, s') ∧ s'.ending = s.ending) ∨
      (s.remaining = [] ∧ s.ending = .closed ∧ s.read n = .ok ([], { s with chunks := [] })) ∨
      (∃ e, s.remaining = [] ∧ s.ending = .failed e ∧ s.read n = .error e) := by
  unfold read
  cases hTake : takeChunk n s.chunks with
  | some taken =>
    obtain ⟨bytes, chunks⟩ := taken
    obtain ⟨b, rest, rfl⟩ := List.exists_cons_of_ne_nil (ne_nil_of_takeChunk hn hTake)
    exact .inl ⟨b, rest, _, rfl, rfl⟩
  | none =>
    have hEmpty : s.remaining = [] := flatten_of_takeChunk_eq_none hTake
    cases hEnding : s.ending with
    | closed => exact .inr (.inl ⟨hEmpty, rfl, rfl⟩)
    | failed e => exact .inr (.inr ⟨e, hEmpty, rfl, rfl⟩)

end Inbound

namespace Connection

variable {c c' : Connection} {n limit : Nat}

/-- What reading ahead does: it brings something, or nothing is left and the end of the stream is met. -/
theorem fill_cases (hn : 0 < n) (c : Connection) :
    (∃ k c', c.fill n = (.ok (k + 1), c') ∧ c'.inbound.ending = c.inbound.ending) ∨
      (c.remaining = c.buffered ∧ c.inbound.ending = .closed ∧ ∃ c', c.fill n = (.ok 0, c')) ∨
      (∃ e, c.remaining = c.buffered ∧ c.inbound.ending = .failed e ∧ c.fill n = (.error e, c)) := by
  have hRoom : 0 < n + c.slack.headD 0 := by omega
  rcases Inbound.read_cases hRoom c.inbound with
    ⟨b, bytes, s', hRead, hEnding⟩ | ⟨hEmpty, hEnding, hRead⟩ | ⟨e, hEmpty, hEnding, hRead⟩
  · refine .inl ⟨bytes.length, { c with buffered := c.buffered ++ b :: bytes, inbound := s', slack := c.slack.tail },
      ?_, hEnding⟩
    rw [fill, hRead]
    rfl
  · refine .inr (.inl ⟨by simp [remaining, hEmpty], hEnding, ?_⟩)
    rw [fill, hRead]
    exact ⟨_, rfl⟩
  · exact .inr (.inr ⟨e, by simp [remaining, hEmpty], hEnding, by rw [fill, hRead]⟩)

/-- Whatever reading ahead brings, the end of the stream is still the same. -/
theorem ending_of_fill {r : Except TransportError Nat} (h : c.fill n = (r, c')) :
    c'.inbound.ending = c.inbound.ending := by
  unfold fill at h
  split at h
  · simp only [Prod.mk.injEq] at h
    rw [← h.2]
  · rename_i hRead
    simp only [Prod.mk.injEq] at h
    rw [← h.2, Inbound.ending_of_read hRead]

/-- No more bytes can come: the buffer holds them all, and the stream has ended. -/
theorem exhausted_of_fill_zero (hn : 0 < n) (h : c.fill n = (.ok 0, c')) :
    c.remaining = c.buffered ∧ c.inbound.ending.failure = .endOfStream := by
  rcases fill_cases hn c with ⟨_, _, hFill, -⟩ | ⟨hAll, hEnding, -⟩ | ⟨_, -, -, hFill⟩
  · simp [hFill] at h
  · exact ⟨hAll, by rw [hEnding]; rfl⟩
  · simp [hFill] at h

/-- No more bytes can come: the buffer holds them all, and the stream has failed. -/
theorem exhausted_of_fill_error {e : TransportError} (hn : 0 < n) (h : c.fill n = (.error e, c')) :
    c.remaining = c.buffered ∧ c.inbound.ending.failure = e := by
  rcases fill_cases hn c with ⟨_, _, hFill, -⟩ | ⟨-, -, _, hFill⟩ | ⟨e', hAll, hEnding, hFill⟩
  · simp [hFill] at h
  · simp [hFill] at h
  · rw [hFill] at h
    simp only [Prod.mk.injEq, Except.error.injEq] at h
    rw [hEnding, ← h.1]
    exact ⟨hAll, rfl⟩

/-- A connection never asks for nothing. -/
theorem readSize_pos (c : Connection) : 0 < max c.readSize minReadSize := by
  have : 0 < minReadSize := by decide
  omega

/-- A connection is readable if there is a byte left on it; if not, the end of its stream is met.  Waiting uses
nothing up. -/
theorem waitReadable_cases (c : Connection) :
    (∃ c', c.waitReadable = (.ok true, c') ∧ c.remaining ≠ [] ∧ c'.remaining = c.remaining ∧
        c'.inbound.ending = c.inbound.ending) ∨
      (∃ c', c.waitReadable = (.ok false, c') ∧ c.remaining = [] ∧ c.inbound.ending = .closed) ∨
      ∃ e c', c.waitReadable = (.error e, c') ∧ c.remaining = [] ∧ c.inbound.ending = .failed e := by
  by_cases hBuffered : c.buffered = []
  · have hEmpty : c.buffered.isEmpty = true := by simp [hBuffered]
    rcases fill_cases c.readSize_pos c with
      ⟨k, c', hFill, hEnding⟩ | ⟨hAll, hEnding, c', hFill⟩ | ⟨e, hAll, hEnding, hFill⟩
    · refine .inl ⟨c', by simp [waitReadable, hEmpty, hFill], ?_, remaining_of_fill hFill, hEnding⟩
      have hCount := inbound_of_fill hFill
      intro hNil
      simp only [remaining, List.append_eq_nil_iff] at hNil
      rw [hNil.2, List.length_nil] at hCount
      omega
    · exact .inr (.inl ⟨c', by simp [waitReadable, hEmpty, hFill], by rw [hAll, hBuffered], hEnding⟩)
    · exact .inr (.inr ⟨e, c, by simp [waitReadable, hEmpty, hFill], by rw [hAll, hBuffered], hEnding⟩)
  · have hSome : c.buffered.isEmpty = false := by simpa using hBuffered
    exact .inl ⟨c, by simp [waitReadable, hSome], by simp [remaining, hBuffered], rfl, rfl⟩

/-- The result of a reader together with the bytes it leaves; of a failure only the reason counts. -/
def outcome {ε α : Type} (r : Except ε α × Connection) : Except ε (α × Bytes) :=
  match r with
  | (.error e, _) => .error e
  | (.ok a, c) => .ok (a, c.remaining)

/-! ## Lines -/

/-- Bytes without a line feed that are too many for a line stay too many, whatever follows them. -/
theorem takeLine_of_long {which : Limit} {ending : StreamEnd} {front rest : Bytes}
    (hFront : cutFirst lineFeed front = none) (hLong : limit + 1 < front.length) :
    takeLine which limit ending (front ++ rest) = .error (.limitExceeded which) := by
  unfold takeLine
  rw [cutFirst_append_of_none hFront]
  cases cutFirst lineFeed rest with
  | none =>
    simp only [Option.map_none, List.length_append]
    rw [if_pos (by omega)]
  | some parts =>
    obtain ⟨raw, after⟩ := parts
    -- All of the line is there but its last byte, which may be a carriage return.
    have hStrip := length_le_stripReturn (front ++ raw)
    simp only [Option.map_some, List.length_append] at hStrip ⊢
    rw [if_neg (by omega)]

/-- Bytes without a line feed at the end of a stream are no line. -/
theorem takeLine_of_short {which : Limit} {ending : StreamEnd} {bytes : Bytes}
    (hCut : cutFirst lineFeed bytes = none) (hShort : ¬limit + 1 < bytes.length) :
    takeLine which limit ending bytes = .error (.network ending.failure) := by
  simp only [takeLine, hCut, if_neg hShort]

/-- What became of a line, with the bytes behind it. -/
def lineOutcome (which : Limit) (r : Except TransportError (Option Bytes) × Connection) :
    Except Error (Bytes × Bytes) :=
  match r with
  | (.error e, _) => .error (.network e)
  | (.ok none, _) => .error (.limitExceeded which)
  | (.ok (some line), c) => .ok (line, c.remaining)

/-- A search that goes on finds what a search from the beginning finds, if no line feed was passed over. -/
theorem cutFirst_of_scanned {bytes : Bytes} {scanned : Nat} {found : Option (Bytes × Bytes)}
    (hScanned : lineFeed ∉ bytes.take scanned) (hCut : cutFirst lineFeed (bytes.drop scanned) = found) :
    cutFirst lineFeed bytes = found.map fun (part, rest) => (bytes.take scanned ++ part, rest) := by
  rw [← hCut, ← cutFirst_append_of_none (cutFirst_eq_none_iff.mpr hScanned), List.take_append_drop]

/-- So it does not matter where the search for a line starts.  Behind the first read both searches are one. -/
theorem readLineFrom_of_scanned {scanned : Nat} (hScanned : lineFeed ∉ c.buffered.take scanned) :
    c.readLineFrom limit scanned = c.readLine limit := by
  have hCut := cutFirst_of_scanned hScanned rfl
  rw [readLine, readLineFrom, readLineFrom, List.drop_zero, List.take_zero, hCut]
  cases cutFirst lineFeed (c.buffered.drop scanned) with
  | none => rfl
  | some parts => rfl

/-- A line is the same whether its end was there at once or came later.  The induction follows the reads; each
of them leaves the bytes and the end of the stream as they are, and what was searched before it holds no line feed. -/
theorem lineOutcome_readLineFrom (which : Limit) {scanned : Nat} (hScanned : lineFeed ∉ c.buffered.take scanned) :
    lineOutcome which (c.readLineFrom limit scanned) = takeLine which limit c.inbound.ending c.remaining := by
  fun_induction readLineFrom limit scanned c with
  | case1 scanned c part rest hCut line =>
    simp only [takeLine, remaining, cutFirst_append (cutFirst_of_scanned hScanned hCut)]
    by_cases hShort : line.length ≤ limit
    · rw [if_pos hShort, if_pos hShort]
      rfl
    · rw [if_neg hShort, if_neg hShort]
      rfl
  | case2 scanned c hCut hLong =>
    -- The line is given up here although its end may still come.
    exact (takeLine_of_long (cutFirst_of_scanned hScanned hCut) hLong).symm
  | case3 scanned c hCut hShort e c' hFill =>
    obtain ⟨hAll, hFailure⟩ := exhausted_of_fill_error c.readSize_pos hFill
    rw [hAll, takeLine_of_short (cutFirst_of_scanned hScanned hCut) hShort, hFailure]
    rfl
  | case4 scanned c hCut hShort c' hFill =>
    obtain ⟨hAll, hFailure⟩ := exhausted_of_fill_zero c.readSize_pos hFill
    rw [hAll, takeLine_of_short (cutFirst_of_scanned hScanned hCut) hShort, hFailure]
    rfl
  | case5 scanned c hCut hShort k c' hFill ih =>
    obtain ⟨bytes, hBuffered⟩ := buffered_of_fill hFill
    have hNext : lineFeed ∉ c'.buffered.take c.buffered.length := by
      rw [hBuffered, List.take_left]
      exact cutFirst_eq_none_iff.mp (cutFirst_of_scanned hScanned hCut)
    rw [ih hNext, remaining_of_fill hFill, ending_of_fill hFill]

theorem lineOutcome_readLine (which : Limit) (limit : Nat) (c : Connection) :
    lineOutcome which (c.readLine limit) = takeLine which limit c.inbound.ending c.remaining :=
  lineOutcome_readLineFrom which (by simp)

theorem ending_of_readLine {r : Except TransportError (Option Bytes)} (h : c.readLine limit = (r, c')) :
    c'.inbound.ending = c.inbound.ending := by
  unfold readLine at h
  generalize 0 = scanned at h
  fun_induction readLineFrom limit scanned c with
  | case1 scanned c part rest hCut line =>
    simp only [Prod.mk.injEq] at h
    rw [← h.2]
  | case2 scanned c hCut hLong =>
    simp only [Prod.mk.injEq] at h
    rw [← h.2]
  | case3 scanned c hCut hShort e c₁ hFill =>
    simp only [Prod.mk.injEq] at h
    rw [← h.2, ending_of_fill hFill]
  | case4 scanned c hCut hShort c₁ hFill =>
    simp only [Prod.mk.injEq] at h
    rw [← h.2, ending_of_fill hFill]
  | case5 scanned c hCut hShort k c₁ hFill ih => rw [ih h, ending_of_fill hFill]

theorem outcome_readBoundedLine (which : Limit) (limit : Nat) (c : Connection) :
    outcome (c.readBoundedLine which limit) = takeLine which limit c.inbound.ending c.remaining := by
  rw [← lineOutcome_readLine]
  unfold readBoundedLine
  rcases c.readLine limit with ⟨e | _ | line, c'⟩ <;> rfl

theorem takeLine_of_readBoundedLine {which : Limit} {r : Except Error Bytes × Connection}
    (h : c.readBoundedLine which limit = r) : takeLine which limit c.inbound.ending c.remaining = outcome r := by
  rw [← h, outcome_readBoundedLine]

theorem ending_of_readBoundedLine {which : Limit} {line : Bytes}
    (h : c.readBoundedLine which limit = (.ok line, c')) : c'.inbound.ending = c.inbound.ending := by
  unfold readBoundedLine at h
  split at h
  · simp at h
  · simp at h
  · rename_i hLine
    simp only [Prod.mk.injEq] at h
    rw [← h.2, ending_of_readLine hLine]

/-! ## Header blocks, bodies, requests -/

theorem outcome_readHeaderBlock (limits : Limits) (block : HeaderBlock) (c : Connection) :
    outcome (c.readHeaderBlock limits block) =
      takeHeaderBlock limits c.inbound.ending block c.remaining := by
  fun_induction readHeaderBlock limits block c with
  | case1 block c e c₁ hLine => exact (takeHeaderBlock_of_error (takeLine_of_readBoundedLine hLine)).symm
  | case2 block c c₁ hLine => exact (takeHeaderBlock_of_blank (takeLine_of_readBoundedLine hLine)).symm
  | case3 block c b line c₁ hLine e block₁ hPush =>
    rw [takeHeaderBlock_of_line (takeLine_of_readBoundedLine hLine) (by simp), hPush]
    rfl
  | case4 block c b line c₁ hLine block₁ hPush ih =>
    rw [takeHeaderBlock_of_line (takeLine_of_readBoundedLine hLine) (by simp), hPush]
    -- What is left behind the line is read with the same end of the stream in sight.
    rw [ih, ending_of_readBoundedLine hLine]

theorem ending_of_readHeaderBlock {limits : Limits} {block : HeaderBlock} {headers : Headers}
    (h : c.readHeaderBlock limits block = (.ok headers, c')) : c'.inbound.ending = c.inbound.ending := by
  fun_induction readHeaderBlock limits block c with
  | case1 => simp at h
  | case2 block c c₁ hLine =>
    simp only [Prod.mk.injEq] at h
    rw [← h.2, ending_of_readBoundedLine hLine]
  | case3 => simp at h
  | case4 block c b line c₁ hLine block₁ hPush ih => rw [ih h, ending_of_readBoundedLine hLine]

theorem outcome_readExact (n : Nat) (c : Connection) :
    outcome (c.readExact n) = takeExact n c.inbound.ending c.remaining := by
  fun_induction readExact n c with
  | case1 c hEnough =>
    have hAll : n ≤ c.remaining.length := by
      simp only [remaining, List.length_append]
      omega
    rw [takeExact, if_pos hAll]
    simp only [outcome, remaining]
    rw [List.take_append_of_le_length hEnough, List.drop_append_of_le_length hEnough]
  | case2 c hFew e c₁ hFill =>
    obtain ⟨hAll, hFailure⟩ := exhausted_of_fill_error (by omega) hFill
    rw [hAll, takeExact, if_neg hFew, hFailure]
    rfl
  | case3 c hFew c₁ hFill =>
    obtain ⟨hAll, hFailure⟩ := exhausted_of_fill_zero (by omega) hFill
    rw [hAll, takeExact, if_neg hFew, hFailure]
    rfl
  | case4 c hFew k c₁ hFill ih => rw [ih, remaining_of_fill hFill, ending_of_fill hFill]

theorem ending_of_readExact {r : Except TransportError Bytes} (h : c.readExact n = (r, c')) :
    c'.inbound.ending = c.inbound.ending := by
  fun_induction readExact n c with
  | case1 c hEnough =>
    simp only [Prod.mk.injEq] at h
    rw [← h.2]
  | case2 c hFew e c₁ hFill =>
    simp only [Prod.mk.injEq] at h
    rw [← h.2, ending_of_fill hFill]
  | case3 c hFew c₁ hFill =>
    simp only [Prod.mk.injEq] at h
    rw [← h.2, ending_of_fill hFill]
  | case4 c hFew k c₁ hFill ih => rw [ih h, ending_of_fill hFill]

theorem outcome_readBody (method : Method) (length : Nat) (c : Connection) :
    outcome (c.readBody method length) = takeBody method length c.inbound.ending c.remaining := by
  unfold readBody takeBody
  by_cases hZero : length = 0
  · rw [if_pos hZero, if_pos hZero]
    rfl
  · rw [if_neg hZero, if_neg hZero, ← outcome_readExact]
    rcases c.readExact length with ⟨e | bytes, c₁⟩ <;> rfl

theorem ending_of_readBody {method : Method} {length : Nat} {body : Option Bytes}
    (h : c.readBody method length = (.ok body, c')) : c'.inbound.ending = c.inbound.ending := by
  unfold readBody at h
  split at h
  · simp only [Prod.mk.injEq] at h
    rw [← h.2]
  · split at h
    · simp at h
    · rename_i hExact
      simp only [Prod.mk.injEq] at h
      rw [← h.2, ending_of_readExact hExact]

/-- What a connection yields as a request is said by the bytes that are left on it and by the end of its
stream. -/
theorem outcome_readRequest (limits : Limits) (c : Connection) :
    outcome (c.readRequest limits) = takeRequest limits c.inbound.ending c.remaining := by
  have hLine := outcome_readBoundedLine .headline limits.headline c
  unfold readRequest takeRequest
  rw [← hLine]
  rcases hRead : c.readBoundedLine .headline limits.headline with ⟨e | line, c₁⟩
  · rfl
  simp only [outcome]
  cases hHeadline : Headline.parse line with
  | error e => rfl
  | ok headline =>
    -- Every part is read with the end of the stream that was in sight at the beginning.
    have hBlock := outcome_readHeaderBlock limits { maxSize := limits.headerBlock } c₁
    rw [ending_of_readBoundedLine hRead] at hBlock
    dsimp only
    rw [← hBlock]
    rcases hReadBlock : c₁.readHeaderBlock limits { maxSize := limits.headerBlock } with ⟨e | headers, c₂⟩
    · rfl
    simp only [outcome]
    cases hHead : checkHead limits headline headers with
    | error e => rfl
    | ok head =>
      obtain ⟨amended, length⟩ := head
      have hBody := outcome_readBody headline.method length c₂
      rw [ending_of_readHeaderBlock hReadBlock, ending_of_readBoundedLine hRead] at hBody
      dsimp only
      rw [← hBody]
      rcases c₂.readBody headline.method length with ⟨e | body, c₃⟩ <;> rfl

/-- A connection yields a request and leaves certain bytes if these come off the front of its own. -/
theorem readRequest_eq_ok_iff {limits : Limits} {request : Request} {rest : Bytes} :
    (∃ c', c.readRequest limits = (.ok request, c') ∧ c'.remaining = rest) ↔
      takeRequest limits c.inbound.ending c.remaining = .ok (request, rest) := by
  rw [← outcome_readRequest]
  rcases c.readRequest limits with ⟨e | read, c'⟩
  · simp [outcome]
  · simp only [outcome, Prod.mk.injEq, Except.ok.injEq]
    constructor
    · rintro ⟨_, ⟨rfl, rfl⟩, rfl⟩
      exact ⟨rfl, rfl⟩
    · rintro ⟨rfl, rfl⟩
      exact ⟨c', ⟨rfl, rfl⟩, rfl⟩

theorem ending_of_readRequest {limits : Limits} {request : Request}
    (h : c.readRequest limits = (.ok request, c')) : c'.inbound.ending = c.inbound.ending := by
  unfold readRequest at h
  split at h
  · simp at h
  rename_i line c₁ hLine
  split at h
  · simp at h
  split at h
  · simp at h
  rename_i headers c₂ hBlock
  split at h
  · simp at h
  split at h
  · simp at h
  rename_i body c₃ hBody
  simp only [Prod.mk.injEq] at h
  rw [← h.2, ending_of_readBody hBody, ending_of_readHeaderBlock hBlock, ending_of_readBoundedLine hLine]

end Connection
end HttpServer
