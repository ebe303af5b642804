import HttpServer.Proofs.ByteReader
import HttpServer.Proofs.HeaderLines

/-!
# The framing of requests

On the wire a request is a request line, field lines, an empty line, and the bytes of a body.  A `Framing` is a way
to write bytes as these four pieces, and `takeRequest_eq_ok_iff` says that requests are read off exactly those bytes
that have a framing within the ceilings, whose body is as long as the fields of the request declare.

The length that delimits the body is the one that a handler finds in the fields afterwards: both are read from the
fields in their final shape.
-/

namespace HttpServer

/-! ## Declared lengths -/

/-- A plain decimal numeral for `n`: one digit or more, and nothing else. -/
structure IsNumeral (cs : List Char) (n : Nat) : Prop where
  ne_nil : cs ≠ []
  isDigit : ∀ c ∈ cs, c.isDigit = true
  value : Nat.ofDigitChars 10 cs 0 = n

theorem readDecimal?_eq_some_iff {max n : Nat} {cs : List Char} :
    readDecimal? max cs = some n ↔ IsNumeral cs n ∧ n ≤ max := by
  unfold readDecimal?
  constructor
  · intro h
    split at h
    · simp at h
    rename_i hForm
    simp only [Bool.or_eq_true, List.isEmpty_iff, Bool.not_eq_true', not_or, Bool.not_eq_false,
      List.all_eq_true] at hForm
    dsimp only at h
    split at h
    · rename_i hMax
      simp only [Option.some.injEq] at h
      subst h
      exact ⟨⟨hForm.1, hForm.2, rfl⟩, hMax⟩
    · simp at h
  · rintro ⟨⟨hNe, hDigits, rfl⟩, hMax⟩
    have hAll : cs.all Char.isDigit = true := List.all_eq_true.mpr hDigits
    simp [hNe, hAll, hMax]

/-- The length that fields declare for the body: none at all stands for zero, and a numeral has to fit 64 bits. -/
def DeclaresLength (headers : Headers) (n : Nat) : Prop :=
  match headers.get? "Content-Length" with
  | none => n = 0
  | some raw => IsNumeral (trim raw.toList) n ∧ n ≤ maxContentLength

namespace Connection

variable {limits : Limits} {headline : Headline} {headers amended : Headers} {length : Nat}

theorem bodyLength_eq_ok_iff :
    bodyLength limits headers = .ok length ↔ DeclaresLength headers length ∧ length ≤ limits.content := by
  unfold bodyLength DeclaresLength
  cases headers.get? "Content-Length" with
  | none =>
    simp only [Except.ok.injEq]
    constructor
    · rintro rfl
      exact ⟨rfl, Nat.zero_le _⟩
    · rintro ⟨rfl, -⟩
      rfl
  | some raw =>
    -- A numeral has one value, so the length that was read is the length that is declared.
    have hNumeral : ∀ n, contentLength? raw = some n ↔ IsNumeral (trim raw.toList) n ∧ n ≤ maxContentLength :=
      fun n => readDecimal?_eq_some_iff
    simp only [← hNumeral]
    cases contentLength? raw with
    | none => simp
    | some n =>
      by_cases hLarge : limits.content < n
      · simp only [if_pos hLarge, Option.some.injEq, reduceCtorEq, false_iff]
        omega
      · simp only [if_neg hLarge, Except.ok.injEq, Option.some.injEq]
        omega

theorem checkTransferEncoding_eq_ok_iff {version : Version} :
    headers.checkTransferEncoding version = .ok () ↔
      (version.atLeast .http11 = true → headers.get? "Transfer-Encoding" = none) := by
  unfold Headers.checkTransferEncoding Headers.has
  by_cases hVersion : version.atLeast .http11 = true
  · cases headers.get? "Transfer-Encoding" <;> simp [hVersion]
  · simp [hVersion]

/-- A request head passes when its fields, in their final shape, name no transfer encoding and declare a length. -/
theorem checkHead_eq_ok_iff :
    checkHead limits headline headers = .ok (amended, length) ↔
      amended = headers.amend headline.url ∧
        (headline.version.atLeast .http11 = true → amended.get? "Transfer-Encoding" = none) ∧
        DeclaresLength amended length ∧ length ≤ limits.content := by
  unfold checkHead
  dsimp only [bind, Except.bind]
  constructor
  · intro h
    split at h
    · simp at h
    rename_i hEncoding
    split at h
    · simp at h
    rename_i n hLength
    simp only [pure, Except.pure, Except.ok.injEq, Prod.mk.injEq] at h
    obtain ⟨rfl, rfl⟩ := h
    exact ⟨rfl, checkTransferEncoding_eq_ok_iff.mp hEncoding, bodyLength_eq_ok_iff.mp hLength⟩
  · rintro ⟨rfl, hEncoding, hLength⟩
    rw [checkTransferEncoding_eq_ok_iff.mpr hEncoding]
    dsimp only
    rw [bodyLength_eq_ok_iff.mpr hLength]
    rfl

end Connection

/-! ## Header blocks and bodies -/

section Parts

variable {limits : Limits} {ending : StreamEnd} {bytes rest : Bytes} {headers : Headers}

/-- A field line within its ceiling, as it stands before its line feed. -/
structure IsFieldLine (limits : Limits) (raw : Bytes) : Prop where
  noFeed : lineFeed ∉ raw
  ne_nil : stripReturn raw ≠ []
  fits : (stripReturn raw).length ≤ limits.headerLine

/-- An empty line, as it stands before its line feed. -/
structure IsBlankLine (raw : Bytes) : Prop where
  noFeed : lineFeed ∉ raw
  blank : stripReturn raw = []

/-- A header block is field lines and an empty line. -/
theorem takeHeaderBlock_eq_ok_iff {block : HeaderBlock} :
    takeHeaderBlock limits ending block bytes = .ok (headers, rest) ↔
      ∃ fields blank block',
        bytes = unlines (fields ++ [blank]) ++ rest ∧ (∀ raw ∈ fields, IsFieldLine limits raw) ∧
          IsBlankLine blank ∧ block.pushAll (fields.map stripReturn) = .ok block' ∧ block'.headers = headers := by
  constructor
  · intro h
    fun_induction takeHeaderBlock limits ending block bytes with
    | case1 => simp at h
    | case2 block bytes rest' hLine =>
      simp only [Except.ok.injEq, Prod.mk.injEq] at h
      obtain ⟨rfl, rfl⟩ := h
      obtain ⟨blank, rfl, hFeed, hBlank, -⟩ := takeLine_eq_ok_iff.mp hLine
      exact ⟨[], blank, block, by simp, by simp, ⟨hFeed, hBlank⟩, rfl, rfl⟩
    | case3 => simp at h
    | case4 block bytes b line rest' hLine block₁ hPush ih =>
      obtain ⟨fields, blank, block', rfl, hFields, hBlank, hAll, hHeaders⟩ := ih h
      obtain ⟨raw, rfl, hFeed, hStrip, hFits⟩ := takeLine_eq_ok_iff.mp hLine
      have hRaw : IsFieldLine limits raw := ⟨hFeed, by simp [hStrip], by rw [hStrip]; exact hFits⟩
      refine ⟨raw :: fields, blank, block', by simp, ?_, hBlank, ?_, hHeaders⟩
      · simpa using ⟨hRaw, hFields⟩
      · rw [List.map_cons, HeaderBlock.pushAll_cons_eq_ok_iff, hStrip]
        exact ⟨block₁, hPush, hAll⟩
  · rintro ⟨fields, blank, block', rfl, hFields, hBlank, hAll, rfl⟩
    induction fields generalizing block with
    | nil =>
      simp only [List.map_nil, HeaderBlock.pushAll, Except.ok.injEq] at hAll
      subst hAll
      refine takeHeaderBlock_of_blank (takeLine_eq_ok_iff.mpr ⟨blank, by simp, hBlank.noFeed, hBlank.blank, ?_⟩)
      simp
    | cons raw fields ih =>
      obtain ⟨block₁, hPush, hRest⟩ := HeaderBlock.pushAll_cons_eq_ok_iff.mp hAll
      have hRaw : IsFieldLine limits raw := hFields raw (by simp)
      have hLine : takeLine .headerLine limits.headerLine ending (unlines (raw :: fields ++ [blank]) ++ rest) =
          .ok (stripReturn raw, unlines (fields ++ [blank]) ++ rest) :=
        takeLine_eq_ok_iff.mpr ⟨raw, by simp, hRaw.noFeed, rfl, hRaw.fits⟩
      rw [takeHeaderBlock_of_line hLine hRaw.ne_nil, hPush]
      -- The line has come off the front, and the block has it.
      exact ih (fun r hr => hFields r (by simp [hr])) hRest

/-- A body is taken whole, and kept only for a method that carries one. -/
theorem takeBody_eq_ok_iff {method : Method} {length : Nat} {body : Option Bytes} :
    takeBody method length ending bytes = .ok (body, rest) ↔
      ∃ content, bytes = content ++ rest ∧ content.length = length ∧
        body = if method.mayHaveBody = true ∧ 0 < length then some content else none := by
  unfold takeBody takeExact
  by_cases hZero : length = 0
  · subst hZero
    simp only [if_true, Except.ok.injEq, Prod.mk.injEq, List.length_eq_zero_iff, Nat.lt_irrefl, and_false, if_false]
    constructor
    · rintro ⟨rfl, rfl⟩
      exact ⟨[], rfl, rfl, rfl⟩
    · rintro ⟨content, rfl, rfl, rfl⟩
      exact ⟨rfl, rfl⟩
  · have hPos : 0 < length := Nat.pos_of_ne_zero hZero
    simp only [if_neg hZero, hPos, and_true]
    constructor
    · intro h
      split at h
      · simp at h
      rename_i content after hExact
      split at hExact
      · rename_i hEnough
        simp only [Except.ok.injEq, Prod.mk.injEq] at hExact h
        obtain ⟨rfl, rfl⟩ := hExact
        obtain ⟨rfl, rfl⟩ := h
        have hLength : (bytes.take length).length = length := by
          rw [List.length_take]
          omega
        exact ⟨bytes.take length, by simp, hLength, rfl⟩
      · simp at hExact
    · rintro ⟨content, rfl, rfl, rfl⟩
      simp

end Parts

/-! ## Requests -/

/-- The pieces of a request on the wire.  Lines stand as they are before their line feed, so a carriage return at
their end is still there. -/
structure Framing where
  headline : Bytes
  fields : List Bytes
  blank : Bytes
  body : Bytes
  deriving DecidableEq, Repr

namespace Framing

/-- The lines of the head. -/
def head (f : Framing) : List Bytes :=
  f.headline :: f.fields ++ [f.blank]

/-- The bytes that are written: a line feed behind every line of the head, and then the body. -/
def bytes (f : Framing) : Bytes :=
  unlines f.head ++ f.body

/-- Each piece ends where it seems to end: a line at its line feed, and the fields at the first empty line. -/
structure Delimited (f : Framing) : Prop where
  noFeed : ∀ raw ∈ f.head, lineFeed ∉ raw
  fields_ne_nil : ∀ raw ∈ f.fields, stripReturn raw ≠ []
  blank : stripReturn f.blank = []

/-- No piece is over its ceiling; the end of a line does not count, but in the block each line counts with two
bytes for it. -/
structure Within (f : Framing) (limits : Limits) : Prop where
  headline : (stripReturn f.headline).length ≤ limits.headline
  headerLine : ∀ raw ∈ f.fields, (stripReturn raw).length ≤ limits.headerLine
  headerBlock : (f.fields.map fun raw => (stripReturn raw).length + 2).sum ≤ limits.headerBlock
  content : f.body.length ≤ limits.content

/-- What the pieces mean: the request line and the fields are understood, the fields declare the length of the body,
and the body is there if the method carries one. -/
structure Yields (limits : Limits) (f : Framing) (request : Request) : Prop where
  headline : Headline.parse (stripReturn f.headline) =
    .ok ⟨request.method, request.version, request.target, request.url⟩
  headers : ∃ block, HeaderBlock.pushAll { maxSize := limits.headerBlock } (f.fields.map stripReturn) = .ok block ∧
    request.headers = block.headers.amend request.url
  transferEncoding : request.version.atLeast .http11 = true → request.headers.get? "Transfer-Encoding" = none
  length : DeclaresLength request.headers f.body.length
  body : request.body = if request.method.mayHaveBody = true ∧ 0 < f.body.length then some f.body else none
  remoteAddr : request.remoteAddr = none

end Framing

variable {limits : Limits} {ending : StreamEnd} {bytes rest : Bytes} {request : Request}

/-- The readers of the parts, one behind the other. -/
private theorem takeRequest_eq_ok_iff_parts :
    takeRequest limits ending bytes = .ok (request, rest) ↔
      ∃ line bytes₁ bytes₂ headers₀ length,
        takeLine .headline limits.headline ending bytes = .ok (line, bytes₁) ∧
        Headline.parse line = .ok ⟨request.method, request.version, request.target, request.url⟩ ∧
        takeHeaderBlock limits ending { maxSize := limits.headerBlock } bytes₁ = .ok (headers₀, bytes₂) ∧
        Connection.checkHead limits ⟨request.method, request.version, request.target, request.url⟩ headers₀ =
          .ok (request.headers, length) ∧
        takeBody request.method length ending bytes₂ = .ok (request.body, rest) ∧ request.remoteAddr = none := by
  unfold takeRequest
  constructor
  · intro h
    split at h
    · simp at h
    rename_i line bytes₁ hLine
    split at h
    · simp at h
    rename_i headline hHeadline
    split at h
    · simp at h
    rename_i headers₀ bytes₂ hBlock
    split at h
    · simp at h
    rename_i headers₁ length hHead
    split at h
    · simp at h
    rename_i body bytes₃ hBody
    simp only [Except.ok.injEq, Prod.mk.injEq] at h
    obtain ⟨rfl, rfl⟩ := h
    exact ⟨line, bytes₁, bytes₂, headers₀, length, hLine, hHeadline, hBlock, hHead, hBody, rfl⟩
  · rintro ⟨line, bytes₁, bytes₂, headers₀, length, hLine, hHeadline, hBlock, hHead, hBody, hAddr⟩
    rw [hLine]
    dsimp only
    rw [hHeadline]
    dsimp only
    rw [hBlock]
    dsimp only
    rw [hHead]
    dsimp only
    rw [hBody, ← hAddr]

/-- Requests are read off exactly the bytes that are framed within the ceilings. -/
theorem takeRequest_eq_ok_iff :
    takeRequest limits ending bytes = .ok (request, rest) ↔
      ∃ f : Framing, bytes = f.bytes ++ rest ∧ f.Delimited ∧ f.Within limits ∧ f.Yields limits request := by
  rw [takeRequest_eq_ok_iff_parts]
  constructor
  · rintro ⟨line, bytes₁, bytes₂, headers₀, length, hLine, hHeadline, hBlock, hHead, hBody, hAddr⟩
    obtain ⟨headline, rfl, hFeed, rfl, hShort⟩ := takeLine_eq_ok_iff.mp hLine
    obtain ⟨fields, blank, block, rfl, hFields, hBlank, hPush, rfl⟩ := takeHeaderBlock_eq_ok_iff.mp hBlock
    obtain ⟨hHeaders, hEncoding, hLength, hContent⟩ := Connection.checkHead_eq_ok_iff.mp hHead
    obtain ⟨body, rfl, rfl, hKept⟩ := takeBody_eq_ok_iff.mp hBody
    obtain ⟨hSize, hFits⟩ := HeaderBlock.size_of_pushAll hPush (Nat.zero_le _)
    -- The pieces are the raw lines that the readers took, and the body they took behind them.
    refine ⟨⟨headline, fields, blank, body⟩, by simp [Framing.bytes, Framing.head], ?delimited, ?within, ?yields⟩
    case delimited =>
      refine ⟨?_, fun raw hRaw => (hFields raw hRaw).ne_nil, hBlank.blank⟩
      simp only [Framing.head, List.cons_append, List.mem_cons, List.mem_append, List.not_mem_nil, or_false]
      rintro raw (rfl | hRaw | rfl)
      · exact hFeed
      · exact (hFields raw hRaw).noFeed
      · exact hBlank.noFeed
    case within =>
      have hSum : (fields.map fun raw => (stripReturn raw).length + 2).sum ≤ limits.headerBlock := by
        simp only [List.map_map, Function.comp_def, Nat.zero_add] at hSize
        rw [← hSize]
        exact hFits
      exact ⟨hShort, fun raw hRaw => (hFields raw hRaw).fits, hSum, hContent⟩
    case yields => exact ⟨hHeadline, ⟨block, hPush, hHeaders⟩, hEncoding, hLength, hKept, hAddr⟩
  · rintro ⟨⟨headline, fields, blank, body⟩, rfl, hDelimited, hWithin, hYields⟩
    obtain ⟨hHeadline, ⟨block, hPush, hHeaders⟩, hEncoding, hLength, hKept, hAddr⟩ := hYields
    have hFields : ∀ raw ∈ fields, IsFieldLine limits raw := fun raw hRaw =>
      ⟨hDelimited.noFeed raw (by simp [Framing.head, hRaw]), hDelimited.fields_ne_nil raw hRaw,
        hWithin.headerLine raw hRaw⟩
    have hBlank : IsBlankLine blank := ⟨hDelimited.noFeed blank (by simp [Framing.head]), hDelimited.blank⟩
    have hFeed : lineFeed ∉ headline := hDelimited.noFeed headline (by simp [Framing.head])
    -- Each reader finds its piece at the front and leaves the next one.
    refine ⟨stripReturn headline, unlines (fields ++ [blank]) ++ (body ++ rest), body ++ rest, block.headers,
      body.length, ?line, hHeadline, ?block, ?head, ?body, hAddr⟩
    case line =>
      exact takeLine_eq_ok_iff.mpr
        ⟨headline, by simp [Framing.bytes, Framing.head], hFeed, rfl, hWithin.headline⟩
    case block => exact takeHeaderBlock_eq_ok_iff.mpr ⟨fields, blank, block, rfl, hFields, hBlank, hPush, rfl⟩
    case head => exact Connection.checkHead_eq_ok_iff.mpr ⟨hHeaders, hEncoding, hLength, hWithin.content⟩
    case body => exact takeBody_eq_ok_iff.mpr ⟨body, rfl, rfl, hKept⟩

/-- What a connection reads as a request is one framing within the ceilings, however its bytes come in; and whatever
is framed so is read, with nothing taken beyond it. -/
theorem Connection.readRequest_eq_ok_iff_framing (limits : Limits) (c : Connection) (request : Request)
    (rest : Bytes) :
    (∃ c', c.readRequest limits = (.ok request, c') ∧ c'.remaining = rest) ↔
      ∃ f : Framing, c.remaining = f.bytes ++ rest ∧ f.Delimited ∧ f.Within limits ∧ f.Yields limits request := by
  rw [readRequest_eq_ok_iff, takeRequest_eq_ok_iff]

end HttpServer
