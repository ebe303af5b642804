import HttpServer.Proofs.Framing
import HttpServer.Proofs.RequestSequence

/-!
# Fields that decide where a request ends

`Transfer-Encoding` and `Content-Length` say how long a body is, so a request in which one of them cannot be followed
is refused.  The checks look at the fields that are stored in the end.  A line whose value holds a control character,
or that is not UTF-8, is dropped before that like any other line; a later line with the same name takes the place of an
earlier one, and continuation lines belong to the value.  `readRequest_error_of_framing_field` is what remains: no such
field is ignored that is well-formed and has the last word.  `readRequest_drops_framing_fields` shows that the
conditions are needed.
-/

namespace HttpServer

/-! ## The head of a request, on the bytes -/

/-- The first line. -/
def requestLine (bytes : Bytes) : Bytes :=
  (linesOf bytes).headD []

/-- The lines behind the first one, up to the first empty line. -/
def blockLines (bytes : Bytes) : List Bytes :=
  (linesOf bytes).tail.takeWhile (!·.isEmpty)

/-- A line that gives the field `name`, in either letter case, a value. -/
def Gives (line : Bytes) (name value : String) : Prop :=
  ∃ written, headerLine line = .field written value ∧ sameIgnoringCase written name = true

namespace Framing

variable {f : Framing} {rest : Bytes}

theorem linesOf_bytes (h : f.Delimited) :
    linesOf (f.bytes ++ rest) =
      stripReturn f.headline :: (f.fields.map stripReturn ++ [] :: linesOf (f.body ++ rest)) := by
  rw [bytes, List.append_assoc, linesOf_unlines h.noFeed]
  simp [head, h.blank]

theorem requestLine_bytes (h : f.Delimited) : requestLine (f.bytes ++ rest) = stripReturn f.headline := by
  rw [requestLine, linesOf_bytes h, List.headD_cons]

theorem blockLines_bytes (h : f.Delimited) : blockLines (f.bytes ++ rest) = f.fields.map stripReturn := by
  have hFields : [] ∉ f.fields.map stripReturn := by simpa using h.fields_ne_nil
  rw [blockLines, linesOf_bytes h, List.tail_cons, takeWhile_append_nil_cons hFields]

end Framing

/-! ## Fields in their final shape -/

namespace Headers

variable {h : Headers} {name : String}

theorem get?_amendPragma_of_ne (hCache : sameIgnoringCase "Cache-Control" name = false) :
    h.amendPragma.get? name = h.get? name := by
  unfold amendPragma
  split
  · exact get?_insert_of_ne h hCache
  · rfl

/-- Bringing fields into shape concerns two names only. -/
theorem get?_amend_of_ne (hHost : sameIgnoringCase "Host" name = false)
    (hCache : sameIgnoringCase "Cache-Control" name = false) (url : Url) :
    (h.amend url).get? name = h.get? name := by
  rw [amend, get?_amendPragma_of_ne hCache, amendHost]
  split
  · rfl
  split
  · exact get?_remove_of_ne h hHost
  · exact get?_insert_of_ne h hHost

end Headers

section Lines

variable {line : Bytes} {lines : List Bytes} {name value : String}

/-- A line that gives a field is kept if its value may be a field value. -/
theorem Gives.exists_accepted (h : Gives line name value) (hToken : isToken name = true)
    (hName : canonicalName name ≠ setCookieName) (hValue : isFieldValue value = true) :
    ∃ written, headerLine line = .field written value ∧ HeaderBlock.isAcceptable written value = true ∧
      canonicalName written = canonicalName name := by
  obtain ⟨written, hLine, hSame⟩ := h
  have hCanonical : canonicalName written = canonicalName name := canonicalName_eq_iff.mpr hSame
  have hWritten : (canonicalName written != setCookieName) = true := by
    rw [hCanonical, bne_iff_ne]
    exact hName
  refine ⟨written, hLine, ?_, hCanonical⟩
  simp [HeaderBlock.isAcceptable, isToken_eq_of_sameIgnoringCase hSame, hToken, hWritten, hValue]

/-- A name is not kept if every line that gives it has a value that no field may have. -/
theorem not_mem_keptFields (h : ∀ line ∈ lines, ∀ value, Gives line name value → isFieldValue value = false) :
    canonicalName name ∉ fieldNames (keptFields lines) := by
  intro hMem
  obtain ⟨line, hLine, written, value, hField, hAccept, hCanonical⟩ := exists_line_of_mem_keptFields hMem
  have hGives : Gives line name value := ⟨written, hField, canonicalName_eq_iff.mp hCanonical⟩
  have hRefused : isFieldValue value = false := h line hLine value hGives
  simp [HeaderBlock.isAcceptable, hRefused] at hAccept

end Lines

/-! ## Framing fields -/

namespace Connection

variable {limits : Limits} {c c' : Connection} {request : Request}

/-- The pieces that a request was read from, as lines of the stream. -/
theorem framing_of_readRequest (h : c.readRequest limits = (.ok request, c')) :
    ∃ f : Framing, f.Yields limits request ∧ stripReturn f.headline = requestLine c.remaining ∧
      f.fields.map stripReturn = blockLines c.remaining := by
  have hTake := readRequest_eq_ok_iff.mp ⟨c', h, rfl⟩
  obtain ⟨f, hBytes, hDelimited, -, hYields⟩ := takeRequest_eq_ok_iff.mp hTake
  refine ⟨f, hYields, ?_, ?_⟩
  · rw [hBytes, Framing.requestLine_bytes hDelimited]
  · rw [hBytes, Framing.blockLines_bytes hDelimited]

/-- What is known of a request that was read: its request line, and where its fields come from. -/
theorem lines_of_readRequest (h : c.readRequest limits = (.ok request, c')) :
    Headline.parse (requestLine c.remaining) =
        .ok ⟨request.method, request.version, request.target, request.url⟩ ∧
      (∀ name, sameIgnoringCase "Host" name = false → sameIgnoringCase "Cache-Control" name = false →
        request.headers.get? name =
          (keptFields (blockLines c.remaining)).reverse.lookup (canonicalName name)) ∧
      (request.version.atLeast .http11 = true → request.headers.get? "Transfer-Encoding" = none) ∧
      ∃ n, DeclaresLength request.headers n := by
  obtain ⟨f, hYields, hLine, hLines⟩ := framing_of_readRequest h
  obtain ⟨block, hPush, hHeaders⟩ := hYields.headers
  rw [← hLine, ← hLines]
  refine ⟨hYields.headline, ?_, hYields.transferEncoding, f.body.length, hYields.length⟩
  intro name hHost hCache
  rw [hHeaders, Headers.get?_amend_of_ne hHost hCache, HeaderBlock.get?_of_pushAll hPush]

/-- A result is an error if it is no request. -/
private theorem error_of_ne_ok (h : ∀ request c', c.readRequest limits ≠ (.ok request, c')) :
    ∃ e c', c.readRequest limits = (.error e, c') := by
  rcases hRead : c.readRequest limits with ⟨e | request, c'⟩
  · exact ⟨e, c', rfl⟩
  · exact absurd hRead (h request c')

/-- From version 1.1 on, no request is read whose block has a transfer encoding; and in any version, none is read
where the last `Content-Length`, with its continuation lines, is no numeral of 64 bits.  Only lines count whose value
may be a field value. -/
theorem readRequest_error_of_framing_field (limits : Limits) (c : Connection) :
    ((∀ headline, Headline.parse (requestLine c.remaining) = .ok headline →
        headline.version.atLeast .http11 = true) →
      (∃ line ∈ blockLines c.remaining, ∃ value,
        Gives line "Transfer-Encoding" value ∧ isFieldValue value = true) →
      ∃ e c', c.readRequest limits = (.error e, c')) ∧
    ∀ before line after value, blockLines c.remaining = before ++ line :: after →
      Gives line "Content-Length" value → isFieldValue value = true →
      (∀ later ∈ after, ∀ value, Gives later "Content-Length" value → isFieldValue value = false) →
      (∀ n ≤ maxContentLength, ¬IsNumeral (trim (joinAll value (foldedTexts after)).toList) n) →
      ∃ e c', c.readRequest limits = (.error e, c') := by
  constructor
  · rintro hVersion ⟨line, hLine, value, hGives, hValue⟩
    refine error_of_ne_ok fun request c' hRead => ?_
    obtain ⟨hHeadline, hFields, hEncoding, -⟩ := lines_of_readRequest hRead
    obtain ⟨written, hField, hAccept, hName⟩ := hGives.exists_accepted (by decide) (by decide) hValue
    -- The field is in the store with some value, whichever of its lines came last.
    have hFound := lookup_keptFields_ne_none hLine hField hAccept
    rw [hName, ← hFields _ (by decide) (by decide)] at hFound
    exact hFound (hEncoding (hVersion _ hHeadline))
  · rintro before line after value hLines hGives hValue hLater hNumeral
    refine error_of_ne_ok fun request c' hRead => ?_
    obtain ⟨-, hFields, -, n, hLength⟩ := lines_of_readRequest hRead
    obtain ⟨written, hField, hAccept, hName⟩ := hGives.exists_accepted (by decide) (by decide) hValue
    have hLast : canonicalName written ∉ fieldNames (keptFields after) := by
      rw [hName]
      exact not_mem_keptFields hLater
    -- So the length was read from this line and the continuation lines behind it.
    have hFound := lookup_keptFields_of_last before hField hAccept hLast
    rw [hName, ← hLines, ← hFields _ (by decide) (by decide)] at hFound
    simp only [DeclaresLength, hFound] at hLength
    exact hNumeral n hLength.2 hLength.1

/-- A transfer encoding in any letter case, and a length that a continuation line spoils. -/
theorem readRequest_error_of_spoilt_length :
    let encoded := fresh 4096 { chunks := [Utf8.ofText "GET / HTTP/1.1\r\ntransfer-ENCODING: gzip\r\n\r\n"] }
    let spoilt := fresh 4096
      { chunks := [Utf8.ofText "GET / HTTP/1.0\r\nContent-Length: 0\r\ncontent-length: 1\r\n 2\r\n\r\n"] }
    (∃ e c', encoded.readRequest {} = (.error e, c')) ∧ ∃ e c', spoilt.readRequest {} = (.error e, c') := by
  intro encoded spoilt
  constructor
  · refine (readRequest_error_of_framing_field {} encoded).1 ?_ ?_
    · have hParse : Headline.parse (requestLine encoded.remaining) =
          .ok ⟨.get, .http11, "/", { path := "/" }⟩ := rfl
      intro headline hHeadline
      rw [hParse, Except.ok.injEq] at hHeadline
      subst hHeadline
      rfl
    · have hLines : blockLines encoded.remaining = [Utf8.ofText "transfer-ENCODING: gzip"] := rfl
      rw [hLines]
      exact ⟨_, List.mem_singleton.mpr rfl, "gzip", ⟨"transfer-ENCODING", rfl, by decide⟩, by decide⟩
  · refine (readRequest_error_of_framing_field {} spoilt).2 [Utf8.ofText "Content-Length: 0"]
      (Utf8.ofText "content-length: 1") [Utf8.ofText " 2"] "1" rfl ⟨"content-length", rfl, by decide⟩ (by decide) ?_ ?_
    · intro later hLater value hGives
      rw [List.mem_singleton.mp hLater] at hGives
      obtain ⟨written, hLine, -⟩ := hGives
      have hContinuation : headerLine (Utf8.ofText " 2") = .continuation [' ', '2'] := rfl
      simp [hContinuation] at hLine
    · intro n _ hNumeral
      have hSpace : ' ' ∈ (trim (joinAll "1" (foldedTexts [Utf8.ofText " 2"])).toList) := by decide
      exact absurd (hNumeral.isDigit _ hSpace) (by decide)

/-! ### Lines that do not count -/

/-- Framing fields that are dropped: two values hold a control character, and one is not UTF-8. -/
def droppedFields : Framing where
  headline := Utf8.ofText "POST / HTTP/1.1\r"
  fields := [Utf8.ofText "Transfer-Encoding: chunked\x01\r", Utf8.ofText "Transfer-Encoding: " ++ [0xFF, 0x0D],
    Utf8.ofText "Content-Length: 5\x01\r"]
  blank := [carriageReturn]
  body := []

/-- Lengths that do not stay: one is replaced, and the one that replaces it is continued. -/
def replacedFields : Framing where
  headline := Utf8.ofText "POST / HTTP/1.1\r"
  fields := [Utf8.ofText "Content-Length: x\r", Utf8.ofText "Content-Length:\r", Utf8.ofText " 0\r"]
  blank := [carriageReturn]
  body := []

theorem yields_droppedFields :
    droppedFields.Yields {} { method := .post, target := "/", url := { path := "/" } } := by
  have hPush : HeaderBlock.pushAll { maxSize := 1048576 } (droppedFields.fields.map stripReturn) =
      .ok { size := 71, maxSize := 1048576 } := rfl
  exact ⟨rfl, ⟨_, hPush, rfl⟩, fun _ => rfl, rfl, rfl, rfl⟩

theorem yields_replacedFields :
    replacedFields.Yields {}
      { method := .post, target := "/", url := { path := "/" },
        headers := { fields := [("Content-Length", "0")] } } := by
  have hPush : HeaderBlock.pushAll { maxSize := 1048576 } (replacedFields.fields.map stripReturn) =
      .ok { headers := { fields := [("Content-Length", "0")] }, openField := some "Content-Length", size := 40,
            maxSize := 1048576 } := by cbv
  have hZero : IsNumeral (trim "0".toList) 0 := ⟨by decide, List.all_eq_true.mp rfl, rfl⟩
  exact ⟨rfl, ⟨_, hPush, rfl⟩, fun _ => rfl, ⟨hZero, Nat.zero_le _⟩, rfl, rfl⟩

theorem readRequest_of_framing {f : Framing} (readSize : Nat) (hDelimited : f.Delimited) (hWithin : f.Within limits)
    (hYields : f.Yields limits request) :
    ∃ c', (fresh readSize { chunks := [f.bytes] }).readRequest limits = (.ok request, c') := by
  have hBytes : (fresh readSize { chunks := [f.bytes] }).remaining = f.bytes ++ [] := by
    simp [fresh, remaining, Inbound.remaining]
  obtain ⟨c', hRead, -⟩ :=
    readRequest_eq_ok_iff.mpr (takeRequest_eq_ok_iff.mpr ⟨f, hBytes, hDelimited, hWithin, hYields⟩)
  exact ⟨c', hRead⟩

/-- A transfer encoding and a length are dropped with their lines, and lengths that are no numerals give way to later
lines; the requests are read. -/
theorem readRequest_drops_framing_fields :
    let dropped := fresh 4096 { chunks := [droppedFields.bytes] }
    let replaced := fresh 4096 { chunks := [replacedFields.bytes] }
    ((∃ line ∈ blockLines dropped.remaining, Gives line "Transfer-Encoding" "chunked\x01") ∧
      Utf8.ofText "Transfer-Encoding: " ++ [0xFF] ∈ blockLines dropped.remaining ∧
      (∃ line ∈ blockLines dropped.remaining, Gives line "Content-Length" "5\x01") ∧
      ∃ request c', dropped.readRequest {} = (.ok request, c') ∧ request.version = .http11 ∧
        request.headers = {}) ∧
    ((∃ line ∈ blockLines replaced.remaining, Gives line "Content-Length" "x") ∧
      (∃ line ∈ blockLines replaced.remaining, Gives line "Content-Length" "") ∧
      ∃ request c', replaced.readRequest {} = (.ok request, c') ∧
        request.headers.get? "Content-Length" = some "0") ∧
    ∀ n, ¬IsNumeral "5\x01".toList n ∧ ¬IsNumeral "x".toList n ∧ ¬IsNumeral "".toList n := by
  intro dropped replaced
  refine ⟨⟨⟨Utf8.ofText "Transfer-Encoding: chunked\x01", by decide, "Transfer-Encoding", rfl, by decide⟩, by decide,
    ⟨Utf8.ofText "Content-Length: 5\x01", by decide, "Content-Length", rfl, by decide⟩, ?_⟩,
    ⟨⟨Utf8.ofText "Content-Length: x", by decide, "Content-Length", rfl, by decide⟩,
    ⟨Utf8.ofText "Content-Length:", by decide, "Content-Length", rfl, by decide⟩, ?_⟩, ?_⟩
  · obtain ⟨c', hRead⟩ := readRequest_of_framing 4096 ⟨by decide, by decide, rfl⟩
      ⟨by decide, by decide, by decide, by decide⟩ yields_droppedFields
    exact ⟨_, c', hRead, rfl, rfl⟩
  · obtain ⟨c', hRead⟩ := readRequest_of_framing 4096 ⟨by decide, by decide, rfl⟩
      ⟨by decide, by decide, by decide, by decide⟩ yields_replacedFields
    exact ⟨_, c', hRead, rfl⟩
  · intro n
    refine ⟨fun h => ?_, fun h => ?_, fun h => h.ne_nil rfl⟩
    · exact absurd (h.isDigit '\x01' (by decide)) (by decide)
    · exact absurd (h.isDigit 'x' (by decide)) (by decide)

end Connection
end HttpServer
