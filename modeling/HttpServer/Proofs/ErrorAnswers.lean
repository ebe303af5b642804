import HttpServer.Proofs.ReadFailures
import HttpServer.Proofs.ResponseHead

/-!
# Answers to errors, as a peer reads them

An error that has a status is answered with a whole response, and then the connection closes.  What the error quotes,
such as a target that cannot be read, may hold any character.  It goes into the body only: the four lines of the head
depend on the status and on the length of the text (`cannedLines`), so the blank line behind them is the first one
whatever the text is, and a peer that reads the head line by line finds the text behind it and its length in bytes in
the head (`Connection.answers_of_readRequest`).
-/

namespace HttpServer

/-- The fields of an answer to an error. -/
def cannedFields (text : String) : List (String × String) :=
  [("Content-Type", "text/plain; charset=utf-8"),
    (lengthName, String.ofList (decimal (Utf8.ofText text).length)),
    ("Connection", "close")]

/-- The lines of the head of such an answer, without their ends. -/
def cannedLines (status : Status) (text : String) : List String :=
  ("HTTP/1.1 " ++ status.text) :: (cannedFields text).map fieldText

section Lines

variable (status : Status) (text : String)

/-- The head and the text of an answer, with a blank line between them. -/
theorem ofText_cannedText :
    Utf8.ofText (cannedText status text) =
      unlines ((cannedLines status text).map fun line => Utf8.ofText line ++ [carriageReturn]) ++
        carriageReturn :: lineFeed :: Utf8.ofText text := by
  have hText : cannedText status text =
      String.join ((cannedLines status text).map (· ++ lineEnd)) ++ lineEnd ++ text := by
    have hType : "\r\nContent-Type: text/plain; charset=utf-8\r\nContent-Length: " =
        lineEnd ++ fieldText ("Content-Type", "text/plain; charset=utf-8") ++ lineEnd ++ lengthName ++ ": " := by
      decide
    have hClose : "\r\nConnection: close\r\n\r\n" =
        lineEnd ++ fieldText ("Connection", "close") ++ lineEnd ++ lineEnd := by decide
    simp [cannedText, hType, hClose, cannedLines, cannedFields, fieldText, String.join_cons, String.append_assoc]
  have hEnd : Utf8.ofText lineEnd = [carriageReturn, lineFeed] := by decide
  rw [hText, Utf8.ofText_append, Utf8.ofText_append, ofText_join_lineEnd, hEnd]
  simp

/-- No character of the text can end a line of the head. -/
theorem isFieldValue_of_mem_cannedLines : ∀ line ∈ cannedLines status text, isFieldValue line = true := by
  have hLength : isFieldValue (fieldText (lengthName, String.ofList (decimal (Utf8.ofText text).length))) = true := by
    simp only [fieldText, isFieldValue_append, isFieldValue_decimal, Bool.and_true]
    decide
  have hVersion : isFieldValue "HTTP/1.1 " = true := by decide
  simp only [cannedLines, cannedFields, List.map_cons, List.map_nil, List.forall_mem_cons]
  refine ⟨?_, by decide, hLength, by decide, by simp⟩
  simp [isFieldValue_append, isFieldValue_text, hVersion]

theorem ne_empty_of_mem_cannedLines : ∀ line ∈ cannedLines status text, line ≠ "" := by
  simp [cannedLines, cannedFields, fieldText]

/-- Read line by line, an answer falls apart into its head and its text. -/
theorem cutHead_cannedText :
    cutHead (Utf8.ofText (cannedText status text)) =
      some ((cannedLines status text).map Utf8.ofText, Utf8.ofText text) := by
  have hLines : ∀ line ∈ (cannedLines status text).map Utf8.ofText, line ≠ [] ∧ lineFeed ∉ line := by
    simp only [List.mem_map]
    rintro _ ⟨line, hMem, rfl⟩
    exact ⟨Utf8.ofText_ne_nil (ne_empty_of_mem_cannedLines status text line hMem),
      Utf8.not_mem_ofText (not_mem_of_isFieldValue (isFieldValue_of_mem_cannedLines status text line hMem))⟩
  rw [ofText_cannedText]
  simpa [List.map_map, Function.comp_def] using cutHead_unlines hLines (Utf8.ofText text)

/-- The head declares one length, and the text has that many bytes. -/
theorem declaredLengths_cannedLines :
    declaredLengths ((cannedLines status text).map Utf8.ofText).tail =
      [String.ofList (decimal (Utf8.ofText text).length)] := by
  have hTokens : ∀ field ∈ cannedFields text, isToken field.1 = true := by
    simp only [cannedFields, List.forall_mem_cons]
    exact ⟨by decide, by decide, by decide, by simp⟩
  have hTail : ((cannedLines status text).map Utf8.ofText).tail =
      (cannedFields text).map fun field => Utf8.ofText (fieldText field) := by
    simp [cannedLines, Function.comp_def]
  have hType : sameIgnoringCase "Content-Type" lengthName = false := by decide
  have hSame : sameIgnoringCase lengthName lengthName = true := by decide
  have hClose : sameIgnoringCase "Connection" lengthName = false := by decide
  rw [hTail, declaredLengths_map_fieldText hTokens]
  simp [cannedFields, hType, hSame, hClose]

end Lines

namespace Error

/-- Only a failure of the stream leaves nothing to tell the peer about a read. -/
theorem cannedResponse?_eq_none_iff {e : Error} (h : e.isReadFailure = true) :
    e.cannedResponse? = none ↔ ∃ cause, e = .network cause := by
  rcases canned_of_isReadFailure h with ⟨cause, rfl, hNone⟩ | ⟨canned, hSome, hOther⟩
  · simp [hNone]
  · simp [hSome, hOther]

/-- What is written about an error is its status and its text. -/
theorem cannedResponse?_eq_some_iff {e : Error} {canned : Bytes} :
    e.cannedResponse? = some canned ↔
      ∃ status, e.status? = some status ∧ canned = Utf8.ofText (cannedText status e.responseText) := by
  simp [cannedResponse?, eq_comm]

end Error

/-- **An error is answered in full or not at all.**  A read fails for one of four kinds of reasons, and the peer is told
which one unless the stream itself has failed.  Whatever the error quotes, its answer reads as a head of four lines, the
first with the status of the error, and behind the first blank line the text of the error, as many bytes of it as the
head declares. -/
theorem Connection.answers_of_readRequest :
    (∀ (limits : Limits) (c c' : Connection) (e : Error), c.readRequest limits = (.error e, c') →
      e.isReadFailure = true ∧ (e.cannedResponse? = none ↔ ∃ cause, e = .network cause)) ∧
    ∀ (e : Error) (canned : Bytes), e.cannedResponse? = some canned →
      ∃ status, e.status? = some status ∧
        cutHead canned = some ((cannedLines status e.responseText).map Utf8.ofText, Utf8.ofText e.responseText) ∧
        declaredLengths ((cannedLines status e.responseText).map Utf8.ofText).tail =
          [String.ofList (decimal (Utf8.ofText e.responseText).length)] := by
  constructor
  · intro limits c c' e hRead
    have hFailure := isReadFailure_of_readRequest hRead
    exact ⟨hFailure, Error.cannedResponse?_eq_none_iff hFailure⟩
  · intro e canned hCanned
    obtain ⟨status, hStatus, hBytes⟩ := Error.cannedResponse?_eq_some_iff.mp hCanned
    rw [hBytes]
    exact ⟨status, hStatus, cutHead_cannedText status e.responseText, declaredLengths_cannedLines status e.responseText⟩

-- A target may hold a carriage return, and the error quotes it.
example :
    Headline.parse (Utf8.ofText "GET http://[\r\ré HTTP/1.1") =
      .error (.parse (.misdirectedTarget "http://[\r\ré")) := by
  decide +kernel

end HttpServer
