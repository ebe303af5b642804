import HttpServer.Proofs.HeaderLines
import HttpServer.Proofs.StoreInvariant

/-!
# Heads as a peer reads them

A peer reads a head line by line up to the blank line (`cutHead`), and then it looks for the length of the body
(`declaredLengths`).  If the store is sound, it reads what was written: the blank line is the one behind the cookies
(`cutHead_of_encodeHead`), and the length is the one in the store (`declaredLengths_headTexts`).
-/

namespace HttpServer

/-! ## Reading -/

/-- The lines up to the blank line that ends a head, and the bytes behind it. -/
def cutHead (bytes : Bytes) : Option (List Bytes × Bytes) :=
  match _ : cutFirst lineFeed bytes with
  | none => none
  | some (raw, rest) =>
    if (stripReturn raw).isEmpty then some ([], rest)
    else (cutHead rest).map fun (lines, behind) => (stripReturn raw :: lines, behind)
termination_by bytes.length
decreasing_by
  have hCut : bytes = raw ++ lineFeed :: rest := cutFirst_eq_some (by assumption)
  simp only [hCut, List.length_append, List.length_cons]
  omega

/-- The name of the field that declares the length of a body. -/
def lengthName : String := "Content-Length"

/-- The lengths that lines declare for a body, as they stand there. -/
def declaredLengths (lines : List Bytes) : List String :=
  lines.filterMap fun line =>
    match headerLine line with
    | .field name value => if sameIgnoringCase name lengthName then some value else none
    | _ => none

@[simp]
theorem trimText_decimal (n : Nat) : trimText (String.ofList (decimal n)) = String.ofList (decimal n) := by
  have hDigits : ∀ c ∈ decimal n, isBlank c = false := fun c hc =>
    isBlank_of_isTokenChar (by simp [isTokenChar, Char.isAlphanum, isDigit_of_mem_decimal hc])
  simp [trimText, trim_of_not_blank hDigits]

theorem cutHead_line {raw rest : Bytes} (hFeed : lineFeed ∉ raw) :
    cutHead (raw ++ lineFeed :: rest) =
      if (stripReturn raw).isEmpty then some ([], rest)
      else (cutHead rest).map fun (lines, behind) => (stripReturn raw :: lines, behind) := by
  have hCut : cutFirst lineFeed (raw ++ lineFeed :: rest) = some (raw, rest) :=
    cutFirst_eq_some_iff.mpr ⟨rfl, hFeed⟩
  rw [cutHead]
  split
  · rename_i hNone
    simp [hCut] at hNone
  · rename_i hSome
    rw [hCut] at hSome
    simp only [Option.some.injEq, Prod.mk.injEq] at hSome
    obtain ⟨rfl, rfl⟩ := hSome
    rfl

/-- Lines with something on them are read up to the blank line behind them. -/
theorem cutHead_unlines {lines : List Bytes} (hLines : ∀ line ∈ lines, line ≠ [] ∧ lineFeed ∉ line) (rest : Bytes) :
    cutHead (unlines (lines.map (· ++ [carriageReturn])) ++ carriageReturn :: lineFeed :: rest) =
      some (lines, rest) := by
  have hReturn : lineFeed ∉ [carriageReturn] := by decide
  induction lines with
  | nil =>
    have hBlank : stripReturn [carriageReturn] = [] := stripReturn_concat []
    have hHead : cutHead ([carriageReturn] ++ lineFeed :: rest) = _ := cutHead_line hReturn
    simpa [hBlank] using hHead
  | cons line lines ih =>
    obtain ⟨hSome, hFeed⟩ := hLines line (by simp)
    have hRaw : lineFeed ∉ line ++ [carriageReturn] := by simp [hFeed, hReturn]
    have hRest := ih fun l hl => hLines l (by simp [hl])
    rw [List.map_cons, unlines_cons, List.append_assoc, List.cons_append, cutHead_line hRaw, hRest]
    simp [hSome]

/-! ## Writing -/

/-- The first line of a head, without its end. -/
def statusText (version : Version) (status : Status) : String :=
  (if version.atLeast .http11 then "HTTP/1.1 " else "HTTP/1.0 ") ++ status.written.text

/-- The lines of a head, without their ends. -/
def headTexts (version : Version) (status : Status) (fields : List (String × String)) (cookies : List String) :
    List String :=
  statusText version status :: (fields ++ cookies.map fun value => (setCookieName, value)).map fieldText

theorem ofText_join_lineEnd (texts : List String) :
    Utf8.ofText (String.join (texts.map (· ++ lineEnd))) =
      unlines (texts.map fun text => Utf8.ofText text ++ [carriageReturn]) := by
  have hEnd : Utf8.ofText lineEnd = [carriageReturn, lineFeed] := by decide
  induction texts with
  | nil => rfl
  | cons text texts ih => simp [String.join_cons, ih, hEnd]

section Heads

variable {version : Version} {status : Status} {h : Headers} {head : Bytes}

/-- A head that is written consists of its lines and a blank one. -/
theorem lines_of_encodeHead (hHead : encodeHead? version status h = some head) :
    ∃ values, h.cookies.mapM Cookie.headerValue? = some values ∧
      head =
        unlines ((headTexts version status h.fields values).map fun text => Utf8.ofText text ++ [carriageReturn]) ++
          [carriageReturn, lineFeed] := by
  simp only [encodeHead?, headText?, Headers.cookieLines?, Option.map_eq_some_iff, Option.bind_eq_bind, Option.pure_def,
    Option.bind_eq_some_iff, Option.some.injEq] at hHead
  obtain ⟨text, ⟨cookies, ⟨values, hValues, rfl⟩, rfl⟩, rfl⟩ := hHead
  refine ⟨values, hValues, ?_⟩
  have hEnd : Utf8.ofText lineEnd = [carriageReturn, lineFeed] := by decide
  have hLine : fieldLine setCookieName = fun value => setCookieName ++ ": " ++ value ++ lineEnd := rfl
  have hText : statusLine version status ++ h.fieldLines ++ String.join (values.map (fieldLine setCookieName)) =
      String.join ((headTexts version status h.fields values).map (· ++ lineEnd)) := by
    simp [headTexts, statusLine, statusText, Headers.fieldLines, hLine, fieldLine, fieldText, String.join_cons,
      String.join_append, String.append_assoc, Function.comp_def]
  rw [hText, Utf8.ofText_append, ofText_join_lineEnd, hEnd]

/-- A code and its reason are one piece of a line, whatever the code. -/
theorem isFieldValue_text (status : Status) : isFieldValue status.text = true := by
  have hReason : isFieldValue status.reason = true := by
    unfold Status.reason
    split <;> decide +kernel
  have hSpace : isFieldValue " " = true := by decide
  simp only [Status.text, Status.codeText, isFieldValue_append, isFieldValue_decimal, hReason, hSpace, Bool.and_true]

theorem isFieldValue_statusText (version : Version) (status : Status) :
    isFieldValue (statusText version status) = true := by
  simp only [statusText, isFieldValue_append, isFieldValue_text, Bool.and_true]
  split <;> decide

theorem Headers.Sound.isFieldValue_cookies {values : List String} (hSound : h.Sound)
    (hValues : h.cookies.mapM Cookie.headerValue? = some values) : ∀ value ∈ values, isFieldValue value = true := by
  have hAll : ∀ c ∈ h.cookies, c.validate = .ok () := hSound.cookie
  generalize h.cookies = cookies at hValues hAll
  induction cookies generalizing values with
  | nil =>
    obtain rfl : values = [] := by simpa using hValues.symm
    simp
  | cons c cookies ih =>
    simp only [List.mapM_cons, Option.bind_eq_bind, Option.pure_def, Option.bind_eq_some_iff,
      Option.some.injEq] at hValues
    obtain ⟨value, hValue, values, hRest, rfl⟩ := hValues
    simp only [List.mem_cons, forall_eq_or_imp]
    exact ⟨Cookie.isFieldValue_headerValue (hAll c (by simp)) hValue, ih hRest fun d hd => hAll d (by simp [hd])⟩

/-- Every field of a head, a cookie's among them, is a line of its own. -/
theorem Headers.Sound.isFieldValue_headTexts {values : List String} (hSound : h.Sound)
    (hValues : h.cookies.mapM Cookie.headerValue? = some values) :
    ∀ text ∈ headTexts version status h.fields values, isFieldValue text = true := by
  have hField : ∀ name value, isToken name = true → isFieldValue value = true →
      isFieldValue (fieldText (name, value)) = true := by
    intro name value hName hValue
    have hColon : isFieldValue ": " = true := by decide
    simp [fieldText, isFieldValue_of_isToken hName, hColon, hValue]
  simp only [headTexts, List.map_append, List.map_map, List.mem_cons, List.mem_append, List.mem_map]
  rintro text (rfl | ⟨⟨name, value⟩, hMem, rfl⟩ | ⟨value, hMem, rfl⟩)
  · exact isFieldValue_statusText version status
  · exact hField name value (hSound.token _ hMem) (hSound.value _ hMem)
  · exact hField setCookieName value (by decide) (hSound.isFieldValue_cookies hValues value hMem)

theorem ne_empty_of_mem_headTexts {fields : List (String × String)} {cookies : List String} {text : String}
    (hMem : text ∈ headTexts version status fields cookies) : text ≠ "" := by
  simp only [headTexts, List.mem_cons, List.mem_map] at hMem
  rcases hMem with rfl | ⟨⟨name, value⟩, -, rfl⟩
  · unfold statusText
    split <;> simp
  · simp [fieldText]

theorem declaredLengths_map_fieldText {fields : List (String × String)}
    (hTokens : ∀ field ∈ fields, isToken field.1 = true) :
    declaredLengths (fields.map fun field => Utf8.ofText (fieldText field)) =
      fields.filterMap fun field => if sameIgnoringCase field.1 lengthName then some (trimText field.2) else none := by
  simp only [declaredLengths, List.filterMap_map]
  refine List.filterMap_congr fun field hMem => ?_
  simp only [Function.comp_apply, headerLine_of_isToken (hTokens field hMem)]

/-- A store without doubles has one length at most: the one that a lookup finds. -/
theorem filterMap_length {fields : List (String × String)} (hCanonical : IsCanonical fields)
    (hDistinct : (fieldNames fields).Nodup) :
    (fields.filterMap fun field => if sameIgnoringCase field.1 lengthName then some (trimText field.2) else none) =
      ((fields.lookup lengthName).map trimText).toList := by
  induction fields with
  | nil => rfl
  | cons field fields ih =>
    obtain ⟨name, value⟩ := field
    have hName : canonicalName name = name := hCanonical name (by simp [fieldNames])
    have hRest : IsCanonical fields := fun n hn => hCanonical n (by simp_all [fieldNames])
    simp only [fieldNames, List.map_cons, List.nodup_cons] at hDistinct
    have hSame : sameIgnoringCase name lengthName = true ↔ lengthName = name := by
      have hLength : canonicalName lengthName = lengthName := by decide
      rw [← canonicalName_eq_iff, hName, hLength, eq_comm]
    rw [List.filterMap_cons, ih hRest hDistinct.2, Headers.lookup_cons_eq]
    by_cases hHere : lengthName = name
    · -- The names differ from each other, so this is the only length.
      subst hHere
      have hNone : fields.lookup lengthName = none := Headers.lookup_eq_none_of_not_mem hDistinct.1
      simp [hSame, hNone]
    · simp [hSame, hHere]

/-- **A head is read as it was written.**  Of a sound store the peer gets exactly the lines of the head and exactly the
bytes behind it. -/
theorem cutHead_of_encodeHead (hSound : h.Sound) (hHead : encodeHead? version status h = some head) (behind : Bytes) :
    ∃ values, h.cookies.mapM Cookie.headerValue? = some values ∧
      cutHead (head ++ behind) = some ((headTexts version status h.fields values).map Utf8.ofText, behind) := by
  obtain ⟨values, hValues, rfl⟩ := lines_of_encodeHead hHead
  refine ⟨values, hValues, ?_⟩
  have hLines : ∀ line ∈ (headTexts version status h.fields values).map Utf8.ofText, line ≠ [] ∧ lineFeed ∉ line := by
    simp only [List.mem_map]
    rintro line ⟨text, hMem, rfl⟩
    exact ⟨Utf8.ofText_ne_nil (ne_empty_of_mem_headTexts hMem),
      Utf8.not_mem_ofText (not_mem_of_isFieldValue (hSound.isFieldValue_headTexts hValues text hMem))⟩
  have hCut := cutHead_unlines hLines behind
  simpa [List.map_map, Function.comp_def] using hCut

/-- In the lines behind the first one the peer finds the length that the store has, or none. -/
theorem declaredLengths_headTexts (hSound : h.Sound) (values : List String) :
    declaredLengths ((headTexts version status h.fields values).map Utf8.ofText).tail =
      ((h.fields.lookup lengthName).map trimText).toList := by
  have hCookieName : isToken setCookieName = true := by decide
  have hTokens : ∀ field ∈ h.fields ++ values.map fun value => (setCookieName, value), isToken field.1 = true := by
    simp only [List.mem_append, List.mem_map]
    rintro field (hMem | ⟨value, -, rfl⟩)
    · exact hSound.token field hMem
    · exact hCookieName
  have hTail : ((headTexts version status h.fields values).map Utf8.ofText).tail =
      (h.fields ++ values.map fun value => (setCookieName, value)).map
        fun field => Utf8.ofText (fieldText field) := by
    simp [headTexts, Function.comp_def]
  -- The lines of the cookies come behind the fields and have another name.
  have hOther : sameIgnoringCase setCookieName lengthName = false := by decide
  rw [hTail, declaredLengths_map_fieldText hTokens, List.filterMap_append,
    filterMap_length hSound.canonical hSound.distinct]
  simp [List.filterMap_map, hOther]

end Heads

end HttpServer
