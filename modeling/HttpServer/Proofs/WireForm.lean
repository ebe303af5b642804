import HttpServer.Proofs.Framing
import HttpServer.Proofs.HeadlineForm
import HttpServer.Proofs.RequestSequence

/-!
# Requests in their wire form

A `Submission` is a request as a client sends it, and `Submission.wire` is how it is written: a request line, one line
for each field, an empty line, and the bytes of the body.  Submissions that are sent one behind the other are read
back one behind the other, and nothing behind the last of them is touched (`readMany_wire`).  In particular a body that
a method does not carry is skipped, and a target may hold spaces.
-/

namespace HttpServer

/-! ## Request lines -/

/-- A version as it is written. -/
def versionText (version : Version) : String :=
  "HTTP/" ++ String.ofList (decimal version.major) ++ "." ++ String.ofList (decimal version.minor)

/-- A request line as a client writes it. -/
def headlineText (method : Method) (version : Version) (target : String) : String :=
  method.name ++ " " ++ target ++ " " ++ versionText version

/-- The versions that are spoken. -/
def IsSpoken (version : Version) : Prop :=
  version = .http10 ∨ version = .http11

theorem versionText_spec {version : Version} (h : IsSpoken version) :
    parseVersion? (Utf8.ofText (versionText version)) = some version ∧
      5 ≤ (Utf8.ofText (versionText version)).length ∧ 0x20 ∉ Utf8.ofText (versionText version) ∧
      '\n' ∉ (versionText version).toList ∧ version.major = 1 := by
  rcases h with rfl | rfl
  · exact ⟨rfl, by decide, by decide, by decide, rfl⟩
  · exact ⟨rfl, by decide, by decide, by decide, rfl⟩

/-- A request line is understood as it was meant, with all spaces of the target. -/
theorem Headline.parse_headlineText {method : Method} {version : Version} {target : String} {url : Url}
    (hMethod : method ≠ .pri) (hVersion : IsSpoken version) (hTarget : target ≠ "")
    (hUrl : Url.parse target = .ok url) :
    Headline.parse (Utf8.ofText (headlineText method version target)) = .ok ⟨method, version, target, url⟩ := by
  obtain ⟨hLong, hSpace, -⟩ := method.name_spec
  obtain ⟨hParse, hVersionLong, hVersionSpace, -, hMajor⟩ := versionText_spec hVersion
  have hLine : Utf8.ofText (headlineText method version target) =
      Utf8.ofText method.name ++ 0x20 :: (Utf8.ofText target ++ 0x20 :: Utf8.ofText (versionText version)) := by
    have hBlank : Utf8.ofText " " = [0x20] := by decide
    simp [headlineText, hBlank]
  have hWords : splitHeadline (Utf8.ofText (headlineText method version target)) =
      .ok (Utf8.ofText method.name, Utf8.ofText target, Utf8.ofText (versionText version)) :=
    splitHeadline_eq_ok_iff.mpr ⟨hLine, hSpace, hVersionSpace, hLong, Utf8.ofText_ne_nil hTarget, hVersionLong⟩
  exact parse_eq_ok_iff.mpr ⟨_, _, _, hWords, method.parse?_name, hParse,
    checkVersion_eq_ok_iff.mpr (.inr ⟨hMethod, hMajor⟩), parseTarget_eq_ok_iff.mpr ⟨rfl, hUrl⟩⟩

/-! ## Submissions -/

/-- A request as a client sends it. -/
structure Submission where
  method : Method
  version : Version
  target : String
  /-- The parts of the target. -/
  url : Url
  fields : List (String × String)
  body : Bytes
  deriving DecidableEq, Repr

namespace Submission

/-- The end of a line as clients write it. -/
def lineEnd : Bytes := [carriageReturn, lineFeed]

/-- The bytes of a submission. -/
def wire (s : Submission) : Bytes :=
  Utf8.ofText (headlineText s.method s.version s.target) ++ lineEnd ++
    s.fields.flatMap (fun field => Utf8.ofText (fieldText field) ++ lineEnd) ++ lineEnd ++ s.body

/-- What a client has to observe for its request to arrive as it was sent. -/
structure WellFormed (s : Submission) : Prop where
  method : s.method ≠ .pri
  version : IsSpoken s.version
  target_ne_empty : s.target ≠ ""
  target_one_line : '\n' ∉ s.target.toList
  url : Url.parse s.target = .ok s.url
  fields : ∀ field ∈ s.fields, IsSendable field
  distinct : (fieldNames s.fields).Nodup
  noTransferEncoding : "Transfer-Encoding" ∉ fieldNames s.fields
  noPragma : "Pragma" ∉ fieldNames s.fields
  host : ∃ host, ("Host", host) ∈ s.fields ∧ Host.isValid host = true
  length : ("Content-Length" ∉ fieldNames s.fields ∧ s.body = []) ∨
    ∃ value, ("Content-Length", value) ∈ s.fields ∧ IsNumeral value.toList s.body.length

/-- No part of a submission is over its ceiling; a length that is declared has to fit 64 bits. -/
structure Fits (s : Submission) (limits : Limits) : Prop where
  headline : (Utf8.ofText (headlineText s.method s.version s.target)).length ≤ limits.headline
  headerLine : ∀ field ∈ s.fields, (Utf8.ofText (fieldText field)).length ≤ limits.headerLine
  headerBlock : (s.fields.map fun field => (Utf8.ofText (fieldText field)).length + 2).sum ≤ limits.headerBlock
  content : s.body.length ≤ limits.content
  length : s.body.length ≤ maxContentLength

/-- The request that is to arrive. -/
def received (s : Submission) : Request :=
  { method := s.method, version := s.version, target := s.target, url := s.url, headers := { fields := s.fields },
    body := if s.method.mayHaveBody = true ∧ 0 < s.body.length then some s.body else none }

/-- The pieces in which a submission is written. -/
def framing (s : Submission) : Framing where
  headline := Utf8.ofText (headlineText s.method s.version s.target) ++ [carriageReturn]
  fields := s.fields.map fun field => Utf8.ofText (fieldText field) ++ [carriageReturn]
  blank := [carriageReturn]
  body := s.body

theorem bytes_framing (s : Submission) : s.framing.bytes = s.wire := by
  have hFields : unlines (s.fields.map fun field => Utf8.ofText (fieldText field) ++ [carriageReturn]) =
      s.fields.flatMap fun field => Utf8.ofText (fieldText field) ++ lineEnd := by
    simp [unlines, lineEnd, List.flatMap_map]
  simp [framing, wire, Framing.bytes, Framing.head, hFields, lineEnd]

/-! ### Its fields in a store -/

variable {s : Submission} {limits : Limits}

theorem WellFormed.isCanonical (h : s.WellFormed) : IsCanonical s.fields := by
  intro name hName
  simp only [fieldNames, List.mem_map] at hName
  obtain ⟨field, hField, rfl⟩ := hName
  exact (h.fields field hField).canonical

theorem WellFormed.get?_of_mem (h : s.WellFormed) {name value : String} (hName : canonicalName name = name)
    (hMem : (name, value) ∈ s.fields) : (Headers.mk s.fields []).get? name = some value := by
  rw [Headers.get?_eq_lookup h.isCanonical, hName]
  exact Headers.lookup_eq_some_of_mem h.distinct hMem

theorem WellFormed.get?_of_not_mem (h : s.WellFormed) {name : String} (hName : canonicalName name = name)
    (hMem : name ∉ fieldNames s.fields) : (Headers.mk s.fields []).get? name = none := by
  rw [Headers.get?_eq_lookup h.isCanonical, hName]
  exact Headers.lookup_eq_none_of_not_mem hMem

/-- There is nothing to bring into shape. -/
theorem WellFormed.amend_fields (h : s.WellFormed) (url : Url) :
    (Headers.mk s.fields []).amend url = Headers.mk s.fields [] := by
  obtain ⟨host, hMem, hValid⟩ := h.host
  have hHost : (Headers.mk s.fields []).get? "Host" = some host := h.get?_of_mem (by decide) hMem
  have hPragma : (Headers.mk s.fields []).get? "Pragma" = none := h.get?_of_not_mem (by decide) h.noPragma
  have hKept : (Headers.mk s.fields []).amendHost url = Headers.mk s.fields [] := by
    simp [Headers.amendHost, hHost, hValid]
  rw [Headers.amend, hKept]
  simp [Headers.amendPragma, hPragma]

theorem WellFormed.declaresLength (h : s.WellFormed) (hFits : s.body.length ≤ maxContentLength) :
    DeclaresLength (Headers.mk s.fields []) s.body.length := by
  unfold DeclaresLength
  rcases h.length with ⟨hNone, hBody⟩ | ⟨value, hMem, hNumeral⟩
  · rw [h.get?_of_not_mem (by decide) hNone]
    simp [hBody]
  · rw [h.get?_of_mem (by decide) hMem]
    have hTrim : trim value.toList = value.toList := by
      have hTrimmed : trimText value = value := (h.fields _ hMem).trimmed
      rw [← String.ofList_inj, String.ofList_toList]
      exact hTrimmed
    dsimp only
    rw [hTrim]
    exact ⟨hNumeral, hFits⟩

/-! ### Reading it back -/

theorem not_mem_headlineText (h : s.WellFormed) : '\n' ∉ (headlineText s.method s.version s.target).toList := by
  have hMethod := s.method.name_spec.2.2
  have hVersion := (versionText_spec h.version).2.2.2.1
  have hTarget := h.target_one_line
  simp only [headlineText, String.toList_append, List.mem_append, not_or]
  exact ⟨⟨⟨⟨hMethod, by decide⟩, hTarget⟩, by decide⟩, hVersion⟩

theorem WellFormed.delimited_framing (h : s.WellFormed) : s.framing.Delimited where
  noFeed := by
    have hReturn : lineFeed ∉ [carriageReturn] := by decide
    have hHeadline : lineFeed ∉ Utf8.ofText (headlineText s.method s.version s.target) :=
      Utf8.not_mem_ofText (not_mem_headlineText h)
    simp only [framing, Framing.head, List.cons_append, List.mem_cons, List.mem_append, List.mem_map,
      List.not_mem_nil, or_false]
    rintro raw (rfl | ⟨field, hField, rfl⟩ | rfl)
    · rw [List.mem_append, not_or]
      exact ⟨hHeadline, hReturn⟩
    · rw [List.mem_append, not_or]
      exact ⟨Utf8.not_mem_ofText (not_mem_fieldText (h.fields field hField)), hReturn⟩
    · exact hReturn
  fields_ne_nil := by
    simp only [framing, List.mem_map]
    rintro raw ⟨field, -, rfl⟩
    rw [stripReturn_concat]
    -- Even an empty name and an empty value have the colon between them.
    refine Utf8.ofText_ne_nil fun hEmpty => ?_
    have hChars := congrArg String.toList hEmpty
    simp [fieldText] at hChars
  blank := rfl

theorem Fits.within_framing (h : s.Fits limits) : s.framing.Within limits where
  headline := by simpa [framing] using h.headline
  headerLine := by
    simp only [framing, List.mem_map]
    rintro raw ⟨field, hField, rfl⟩
    rw [stripReturn_concat]
    exact h.headerLine field hField
  headerBlock := by simpa [framing, Function.comp_def] using h.headerBlock
  content := h.content

theorem map_stripReturn_framing (s : Submission) :
    s.framing.fields.map stripReturn = s.fields.map fun field => Utf8.ofText (fieldText field) := by
  simp [framing, Function.comp_def]

/-- The fields arrive as they were sent, in their order. -/
theorem WellFormed.pushAll_framing (h : s.WellFormed) (hFits : s.Fits limits) :
    ∃ block, HeaderBlock.pushAll { maxSize := limits.headerBlock } (s.framing.fields.map stripReturn) = .ok block ∧
      block.headers = Headers.mk s.fields [] := by
  rw [map_stripReturn_framing]
  have hLines : ∀ line ∈ s.fields.map (fun field => Utf8.ofText (fieldText field)),
      ∃ name value, headerLine line = .field name value := by
    simp only [List.mem_map]
    rintro line ⟨field, hField, rfl⟩
    exact ⟨field.1, field.2, headerLine_fieldText (h.fields field hField)⟩
  have hSize : (s.fields.map fun field => Utf8.ofText (fieldText field)).map (fun line => line.length + 2) =
      s.fields.map fun field => (Utf8.ofText (fieldText field)).length + 2 := by
    simp [Function.comp_def]
  have hBlock : HeaderBlock.size { maxSize := limits.headerBlock } +
      ((s.fields.map fun field => Utf8.ofText (fieldText field)).map fun line => line.length + 2).sum ≤
        limits.headerBlock := by
    rw [hSize, Nat.zero_add]
    exact hFits.headerBlock
  obtain ⟨block, hPush⟩ := HeaderBlock.pushAll_of_fields hLines hBlock
  refine ⟨block, hPush, ?_⟩
  rw [HeaderBlock.headers_of_pushAll_nil hPush, keptFields_of_isSendable h.fields]
  rw [Headers.insertAll_of_nodup (by simpa using h.distinct)]
  simp

theorem WellFormed.yields_framing (h : s.WellFormed) (hFits : s.Fits limits) :
    s.framing.Yields limits s.received where
  headline := by
    simp only [framing, stripReturn_concat, received]
    exact Headline.parse_headlineText h.method h.version h.target_ne_empty h.url
  headers := by
    obtain ⟨block, hPush, hHeaders⟩ := h.pushAll_framing hFits
    refine ⟨block, hPush, ?_⟩
    rw [hHeaders, h.amend_fields]
    rfl
  transferEncoding _ := h.get?_of_not_mem (by decide) h.noTransferEncoding
  length := h.declaresLength hFits.length
  body := rfl
  remoteAddr := rfl

/-- One submission is read back, whatever follows it. -/
theorem takeRequest_wire (h : s.WellFormed) (hFits : s.Fits limits) (ending : StreamEnd) (rest : Bytes) :
    takeRequest limits ending (s.wire ++ rest) = .ok (s.received, rest) := by
  rw [takeRequest_eq_ok_iff]
  refine ⟨s.framing, ?_, h.delimited_framing, hFits.within_framing, h.yields_framing hFits⟩
  rw [bytes_framing]

end Submission

/-! ## One behind the other -/

namespace Connection

/-- Read a number of requests. -/
def readMany (limits : Limits) : Nat → Connection → Except Error (List Request) × Connection
  | 0, c => (.ok [], c)
  | n + 1, c =>
    match c.readRequest limits with
    | (.error e, c) => (.error e, c)
    | (.ok request, c) =>
      match readMany limits n c with
      | (.error e, c) => (.error e, c)
      | (.ok requests, c) => (.ok (request :: requests), c)

/-- Submissions that stand one behind the other are read back in their order, and exactly what follows the last of
them is left.  The induction is on the submissions; each is read back whatever follows it. -/
theorem readMany_wire {limits : Limits} {submissions : List Submission} {c : Connection} {trailing : Bytes}
    (hWellFormed : ∀ s ∈ submissions, s.WellFormed) (hFits : ∀ s ∈ submissions, s.Fits limits)
    (hBytes : c.remaining = submissions.flatMap Submission.wire ++ trailing) :
    ∃ c', c.readMany limits submissions.length = (.ok (submissions.map Submission.received), c') ∧
      c'.remaining = trailing := by
  induction submissions generalizing c with
  | nil => exact ⟨c, rfl, by simpa using hBytes⟩
  | cons s submissions ih =>
    have hTake : takeRequest limits c.inbound.ending c.remaining =
        .ok (s.received, submissions.flatMap Submission.wire ++ trailing) := by
      rw [hBytes, List.flatMap_cons, List.append_assoc]
      exact Submission.takeRequest_wire (hWellFormed s (by simp)) (hFits s (by simp)) _ _
    -- What is left behind the first is the others and the trailing bytes.
    obtain ⟨c₁, hRead, hLeft⟩ := readRequest_eq_ok_iff.mpr hTake
    obtain ⟨c', hMany, hTrailing⟩ :=
      ih (fun t ht => hWellFormed t (by simp [ht])) (fun t ht => hFits t (by simp [ht])) hLeft
    refine ⟨c', ?_, hTrailing⟩
    simp [readMany, hRead, hMany]

/-- A request with a body that its method does not carry and spaces in its target, and one with a body behind it. -/
def pipelined : List Submission :=
  [{ method := .get, version := .http11, target := "/a b?q=x y", url := { path := "/a b", query := "q=x y" },
     fields := [("Host", "example.com:80"), ("X-Time", "10:20"), ("X-Empty", ""), ("Content-Length", "3")],
     body := Utf8.ofText "xyz" },
   { method := .post, version := .http10, target := "/submit", url := { path := "/submit" },
     fields := [("Content-Length", "002"), ("Host", "[::1]")], body := Utf8.ofText "ok" }]

/-- Both arrive, read one byte or so at a time, and the first bytes of a third stay where they are. -/
theorem readMany_pipelined :
    let c := fresh 1 { chunks := [pipelined.flatMap Submission.wire, Utf8.ofText "GET /"] }
    (∀ s ∈ pipelined, s.WellFormed) ∧ (∀ s ∈ pipelined, s.Fits {}) ∧
      c.remaining = pipelined.flatMap Submission.wire ++ Utf8.ofText "GET /" ∧
      ∃ c', c.readMany {} 2 = (.ok (pipelined.map Submission.received), c') ∧ c'.remaining = Utf8.ofText "GET /" := by
  intro c
  have hWellFormed : ∀ s ∈ pipelined, s.WellFormed := by
    simp only [pipelined, List.mem_cons, List.not_mem_nil, or_false]
    rintro s (rfl | rfl)
    · refine ⟨by decide, .inr rfl, by decide, by decide, rfl, ?_, by decide, by decide, by decide,
        ⟨"example.com:80", by decide, by decide⟩, .inr ⟨"3", by decide, by decide, by simp, rfl⟩⟩
      simp only [List.mem_cons, List.not_mem_nil, or_false]
      rintro field (rfl | rfl | rfl | rfl) <;> exact ⟨by decide, by decide, by decide, by decide, by decide⟩
    · refine ⟨by decide, .inl rfl, by decide, by decide, rfl, ?_, by decide, by decide, by decide,
        ⟨"[::1]", by decide, by decide⟩, .inr ⟨"002", by decide, by decide, by simp, rfl⟩⟩
      simp only [List.mem_cons, List.not_mem_nil, or_false]
      rintro field (rfl | rfl) <;> exact ⟨by decide, by decide, by decide, by decide, by decide⟩
  have hFits : ∀ s ∈ pipelined, s.Fits {} := by
    simp only [pipelined, List.mem_cons, List.not_mem_nil, or_false]
    rintro s (rfl | rfl) <;> exact ⟨by decide, by decide, by decide, by decide, by decide⟩
  have hBytes : c.remaining = pipelined.flatMap Submission.wire ++ Utf8.ofText "GET /" := by
    simp [c, fresh, remaining, Inbound.remaining]
  exact ⟨hWellFormed, hFits, hBytes, readMany_wire hWellFormed hFits hBytes⟩

end Connection
end HttpServer
