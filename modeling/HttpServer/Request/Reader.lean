import HttpServer.Connection
import HttpServer.Headers.Block
import HttpServer.Request
import HttpServer.Request.Headline
import HttpServer.Request.Amendment

/-!
# Reading requests off a connection

`readRequest` takes one request off the front of a connection: its request line, its header block, and the
bytes of its body.  Every part has a ceiling.  A body that is declared for a method that carries none is
skipped, so the next request begins at the right byte.

`remaining_of_readRequest` says that a request takes at least one byte, which is why a session ends.
-/

namespace HttpServer

/-- Ceilings for the parts of a request. -/
structure Limits where
  /-- Longest request line. -/
  headline : Nat := 2048
  /-- Longest header line. -/
  headerLine : Nat := 8192
  /-- Largest header block; every line counts with two bytes for its end. -/
  headerBlock : Nat := 1048576
  /-- Longest body. -/
  content : Nat := 5242880
  deriving DecidableEq, Repr

namespace Connection

/-- Take one line that may not be longer than `limit`. -/
def readBoundedLine (which : Limit) (limit : Nat) (c : Connection) : Except Error Bytes × Connection :=
  match c.readLine limit with
  | (.error e, c) => (.error (.network e), c)
  | (.ok none, c) => (.error (.limitExceeded which), c)
  | (.ok (some line), c) => (.ok line, c)

theorem remaining_of_readBoundedLine {which : Limit} {limit : Nat} {c c' : Connection} {line : Bytes}
    (h : c.readBoundedLine which limit = (.ok line, c')) :
    ∃ raw, line = stripReturn raw ∧ c.remaining = raw ++ lineFeed :: c'.remaining := by
  unfold readBoundedLine at h
  split at h
  · simp at h
  · simp at h
  · rename_i l c₁ hLine
    simp only [Prod.mk.injEq, Except.ok.injEq] at h
    obtain ⟨rfl, rfl⟩ := h
    exact remaining_of_readLine hLine

/-- Take the header lines up to the empty line that ends the block. -/
def readHeaderBlock (limits : Limits) (block : HeaderBlock) (c : Connection) :
    Except Error Headers × Connection :=
  match _ : c.readBoundedLine .headerLine limits.headerLine with
  | (.error e, c) => (.error e, c)
  | (.ok [], c) => (.ok block.headers, c)
  | (.ok (b :: line), c') =>
    match block.push (b :: line) with
    | (.error e, _) => (.error e, c')
    | (.ok (), block) => readHeaderBlock limits block c'
termination_by c.remaining.length
decreasing_by
  obtain ⟨raw, -, hRaw⟩ := remaining_of_readBoundedLine (by assumption)
  simp only [hRaw, List.length_append, List.length_cons]
  omega

/-- The declared length of the body, zero if none is declared. -/
def bodyLength (limits : Limits) (headers : Headers) : Except Error Nat :=
  match headers.get? "Content-Length" with
  | none => .ok 0
  | some raw =>
    match contentLength? raw with
    | none => .error (.parse (.malformedHeader ("Content-Length: " ++ raw)))
    | some length =>
      if limits.content < length then .error (.parse (.contentTooLarge length limits.content))
      else .ok length

/-- Take a body of `length` bytes; the request has it only if its method carries one. -/
def readBody (method : Method) (length : Nat) (c : Connection) : Except Error (Option Bytes) × Connection :=
  if length = 0 then (.ok none, c)
  else
    match c.readExact length with
    | (.error e, c) => (.error (.network e), c)
    | (.ok bytes, c) => (.ok (if method.mayHaveBody then some bytes else none), c)

/-- What a request head asks for: the fields as handlers see them, and the length of the body. -/
def checkHead (limits : Limits) (headline : Headline) (headers : Headers) : Except Error (Headers × Nat) := do
  let headers := headers.amend headline.url
  headers.checkTransferEncoding headline.version
  let length ← bodyLength limits headers
  return (headers, length)

/-- Take one request off the front. -/
def readRequest (limits : Limits) (c : Connection) : Except Error Request × Connection :=
  match c.readBoundedLine .headline limits.headline with
  | (.error e, c) => (.error e, c)
  | (.ok line, c) =>
    match Headline.parse line with
    | .error e => (.error e, c)
    | .ok headline =>
      match c.readHeaderBlock limits { maxSize := limits.headerBlock } with
      | (.error e, c) => (.error e, c)
      | (.ok headers, c) =>
        match checkHead limits headline headers with
        | .error e => (.error e, c)
        | .ok (headers, length) =>
          match c.readBody headline.method length with
          | (.error e, c) => (.error e, c)
          | (.ok body, c) =>
            (.ok { method := headline.method, version := headline.version, target := headline.target,
                   url := headline.url, headers, body }, c)

/-- A header block comes off the front. -/
theorem remaining_of_readHeaderBlock {limits : Limits} {block : HeaderBlock} {c c' : Connection}
    {headers : Headers} (h : c.readHeaderBlock limits block = (.ok headers, c')) :
    ∃ taken, c.remaining = taken ++ c'.remaining := by
  fun_induction readHeaderBlock limits block c with
  | case1 => simp at h
  | case2 block c c₁ hLine =>
    simp only [Prod.mk.injEq] at h
    obtain ⟨-, rfl⟩ := h
    obtain ⟨raw, -, hRaw⟩ := remaining_of_readBoundedLine hLine
    exact ⟨raw ++ [lineFeed], by simp [hRaw]⟩
  | case3 => simp at h
  | case4 block c b line c₁ hLine block₁ hPush ih =>
    obtain ⟨raw, -, hRaw⟩ := remaining_of_readBoundedLine hLine
    obtain ⟨taken, hTaken⟩ := ih h
    exact ⟨raw ++ lineFeed :: taken, by simp [hRaw, hTaken]⟩

/-- A body comes off the front. -/
theorem remaining_of_readBody {method : Method} {length : Nat} {c c' : Connection} {body : Option Bytes}
    (h : c.readBody method length = (.ok body, c')) : ∃ taken, c.remaining = taken ++ c'.remaining := by
  unfold readBody at h
  split at h
  · simp only [Prod.mk.injEq] at h
    obtain ⟨-, rfl⟩ := h
    exact ⟨[], rfl⟩
  · split at h
    · simp at h
    · rename_i bytes c₁ hExact
      simp only [Prod.mk.injEq] at h
      obtain ⟨-, rfl⟩ := h
      exact ⟨bytes, remaining_of_readExact hExact⟩

/-- A request takes at least one byte off the front. -/
theorem remaining_of_readRequest {limits : Limits} {c c' : Connection} {request : Request}
    (h : c.readRequest limits = (.ok request, c')) :
    ∃ b taken, c.remaining = b :: taken ++ c'.remaining := by
  unfold readRequest at h
  split at h
  · simp at h
  rename_i line c₁ hLine
  split at h
  · simp at h
  split at h
  · simp at h
  rename_i headers c₂ hBlock
  split at h
  · simp at h
  split at h
  · simp at h
  rename_i body c₃ hBody
  simp only [Prod.mk.injEq] at h
  obtain ⟨-, rfl⟩ := h
  obtain ⟨raw, -, hRaw⟩ := remaining_of_readBoundedLine hLine
  obtain ⟨taken₁, h₁⟩ := remaining_of_readHeaderBlock hBlock
  obtain ⟨taken₂, h₂⟩ := remaining_of_readBody hBody
  cases raw with
  | nil => exact ⟨lineFeed, taken₁ ++ taken₂, by simp [hRaw, h₁, h₂]⟩
  | cons b raw => exact ⟨b, raw ++ lineFeed :: (taken₁ ++ taken₂), by simp [hRaw, h₁, h₂]⟩

end Connection
end HttpServer
