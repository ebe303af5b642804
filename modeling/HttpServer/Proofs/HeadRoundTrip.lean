import HttpServer.Proofs.ResponseHead

/-!
# Heads as the reader of header blocks reads them

The writer of heads and the reader of header blocks know nothing of each other.  Still the reader finds in a written
head what the writer had in its store: the same fields in the same order, each value without the blanks at its ends,
and nothing else (`Headers.Built.parseHeaders_of_encodeHead`).  So no value, no cookie and no part of a cookie makes a
line of its own, takes one away or ends the head, whatever it says.

The store has to be filled through its checks, and the dates of its cookies must be such that they can be written.
-/

namespace HttpServer

/-! ## Cookies that can be written -/

/-- The expiry of a cookie lies between 1970 and 9999, if it is written at all: a lifetime in seconds takes its
place. -/
def Cookie.IsDated (c : Cookie) : Prop :=
  c.maxAge.filter (0 < ·) = none →
    ∀ expiry, c.expires = some expiry → 0 ≤ expiry.second ∧ expiry.second < dateEnd

namespace Cookie

/-- The date is all that can keep a cookie from being written. -/
theorem exists_headerValue_iff {c : Cookie} : (∃ value, c.headerValue? = some value) ↔ c.IsDated := by
  have hValue : (∃ value, c.headerValue? = some value) ↔ ∃ lifetime, c.lifetime? = some lifetime := by
    simp [headerValue?, attributes?, Option.bind_eq_some_iff]
  rw [hValue, lifetime?, IsDated]
  cases c.maxAge.filter (0 < ·) with
  | some age => simp
  | none =>
    cases c.expires with
    | none => simp
    | some expiry =>
      have hDate : (∃ text, dateText? expiry.second = some text) ↔ 0 ≤ expiry.second ∧ expiry.second < dateEnd :=
        exists_dateText_iff
      simpa using hDate

theorem exists_mapM_headerValue_iff {cookies : List Cookie} :
    (∃ values, cookies.mapM headerValue? = some values) ↔ ∀ c ∈ cookies, c.IsDated := by
  induction cookies with
  | nil => simp
  | cons c cookies ih =>
    rw [List.forall_mem_cons, ← ih, ← exists_headerValue_iff]
    simp only [List.mapM_cons, Option.bind_eq_bind, Option.pure_def, Option.bind_eq_some_iff, Option.some.injEq]
    constructor
    · rintro ⟨_, value, hValue, values, hValues, -⟩
      exact ⟨⟨value, hValue⟩, values, hValues⟩
    · rintro ⟨⟨value, hValue⟩, values, hValues⟩
      exact ⟨_, value, hValue, values, hValues, rfl⟩

end Cookie

namespace Headers

variable {h : Headers} {version : Version} {status : Status}

/-- A head is written if and only if all its cookies can be, under any version and status. -/
theorem exists_encodeHead_iff :
    (∃ head, encodeHead? version status h = some head) ↔ ∀ c ∈ h.cookies, c.IsDated := by
  rw [← Cookie.exists_mapM_headerValue_iff]
  simp [encodeHead?, headText?, cookieLines?, Option.bind_eq_some_iff]

/-- Cookies do not come into a store as fields. -/
theorem Built.setCookieName_not_mem (hBuilt : h.Built) : setCookieName ∉ fieldNames h.fields := by
  induction hBuilt with
  | empty => simp [fieldNames]
  | @set h h' name value _ hSet ih =>
    obtain ⟨hAccept, rfl⟩ := set_eq_ok_iff.mp hSet
    obtain ⟨-, -, hCookie⟩ := of_isAcceptable hAccept
    intro hMem
    rcases mem_fieldNames_insertField.mp hMem with hEq | hOld
    · exact hCookie hEq.symm
    · exact ih hOld
  | remove _ ih =>
    intro hMem
    obtain ⟨field, hField, hEq⟩ := List.mem_map.mp hMem
    exact ih (hEq ▸ List.mem_map_of_mem (List.mem_of_mem_filter hField))
  | @setCookie h h' c _ hSet ih =>
    obtain ⟨-, rfl⟩ := setCookie_eq_ok_iff.mp hSet
    exact ih
  | removeCookie _ ih => exact ih

/-! ## Reading the head again -/

/-- The fields of a head as they are written, with the cookies behind the others. -/
def writtenFields (h : Headers) (values : List String) : List (String × String) :=
  h.fields ++ values.map fun value => (setCookieName, value)

/-- The lines of the fields. -/
def fieldBytes (h : Headers) (values : List String) : List Bytes :=
  (h.writtenFields values).map fun field => Utf8.ofText (fieldText field)

theorem lines_headTexts (values : List String) :
    (headTexts version status h.fields values).map Utf8.ofText =
      Utf8.ofText (statusText version status) :: h.fieldBytes values := by
  simp [headTexts, fieldBytes, writtenFields, Function.comp_def]

/-- The bytes behind the first line of a head: its fields, and the blank line. -/
def blockBytes (h : Headers) (values : List String) : Bytes :=
  unlines ((h.fieldBytes values).map (· ++ [carriageReturn])) ++ [carriageReturn, lineFeed]

section Block

variable {values : List String}

theorem Built.isCanonical_writtenFields (hBuilt : h.Built) : IsCanonical (h.writtenFields values) := by
  have hCookie : canonicalName setCookieName = setCookieName := by decide
  intro name hName
  obtain ⟨field, hMem, rfl⟩ := List.mem_map.mp hName
  rcases List.mem_append.mp hMem with hField | hLine
  · exact (sound_of_built hBuilt).canonical _ (List.mem_map_of_mem hField)
  · obtain ⟨value, -, rfl⟩ := List.mem_map.mp hLine
    exact hCookie

theorem Built.writtenFields_fit (hBuilt : h.Built) (hValues : h.cookies.mapM Cookie.headerValue? = some values) :
    ∀ field ∈ h.writtenFields values, isToken field.1 = true ∧ isFieldValue field.2 = true := by
  have hSound := sound_of_built hBuilt
  have hCookie : isToken setCookieName = true := by decide
  intro field hMem
  rcases List.mem_append.mp hMem with hField | hLine
  · exact ⟨hSound.token field hField, hSound.value field hField⟩
  · obtain ⟨value, hValue, rfl⟩ := List.mem_map.mp hLine
    exact ⟨hCookie, hSound.isFieldValue_cookies hValues value hValue⟩

/-- Of the written fields those of the store are kept; what is left out is cookies. -/
theorem Built.keptFields_fieldBytes (hBuilt : h.Built) (hValues : h.cookies.mapM Cookie.headerValue? = some values) :
    keptFields (h.fieldBytes values) = h.fields.map fun field => (field.1, trimText field.2) := by
  have hFit := hBuilt.writtenFields_fit hValues
  have hFields : h.fields.filter (·.1 != setCookieName) = h.fields := by
    refine List.filter_eq_self.mpr fun field hField => bne_iff_ne.mpr ?_
    intro hEq
    exact hBuilt.setCookieName_not_mem (hEq ▸ List.mem_map_of_mem hField)
  rw [fieldBytes, keptFields_map_fieldText hBuilt.isCanonical_writtenFields (fun f hf => (hFit f hf).1)
    fun f hf => (hFit f hf).2]
  simp [writtenFields, hFields]

/-- No written field ends its line early, and none is blank. -/
theorem Built.fieldBytes_lines (hBuilt : h.Built) (hValues : h.cookies.mapM Cookie.headerValue? = some values) :
    ∀ line ∈ h.fieldBytes values,
      lineFeed ∉ line ∧ line ≠ [] ∧ ∃ name value, headerLine line = .field name value := by
  intro line hMem
  obtain ⟨field, hField, rfl⟩ := List.mem_map.mp hMem
  obtain ⟨hToken, hValue⟩ := hBuilt.writtenFields_fit hValues field hField
  have hColon : isFieldValue ": " = true := by decide
  have hText : isFieldValue (fieldText field) = true := by
    simp [fieldText, isFieldValue_of_isToken hToken, hColon, hValue]
  exact ⟨Utf8.not_mem_ofText (not_mem_of_isFieldValue hText), Utf8.ofText_ne_nil (by simp [fieldText]),
    field.1, trimText field.2, headerLine_of_isToken hToken⟩

/-- The lines of a block up to its blank one are the lines that were written. -/
theorem Built.takeWhile_linesOf_blockBytes (hBuilt : h.Built)
    (hValues : h.cookies.mapM Cookie.headerValue? = some values) :
    (linesOf (h.blockBytes values)).takeWhile (!·.isEmpty) = h.fieldBytes values := by
  have hLines := hBuilt.fieldBytes_lines hValues
  have hReturn : lineFeed ∉ [carriageReturn] := by decide
  have hRaws : ∀ raw ∈ (h.fieldBytes values).map (· ++ [carriageReturn]) ++ [[carriageReturn]], lineFeed ∉ raw := by
    simp only [List.mem_append, List.mem_map, List.mem_singleton]
    rintro raw (⟨line, hMem, rfl⟩ | rfl)
    · simp [(hLines line hMem).1, hReturn]
    · exact hReturn
  have hBlank : stripReturn [carriageReturn] = [] := stripReturn_concat []
  have hBlock : h.blockBytes values =
      unlines ((h.fieldBytes values).map (· ++ [carriageReturn]) ++ [[carriageReturn]]) ++ [] := by
    simp [blockBytes]
  have hSome : [] ∉ h.fieldBytes values := fun hMem => (hLines [] hMem).2.1 rfl
  rw [hBlock, linesOf_unlines hRaws, List.map_append, List.map_map, List.append_assoc]
  have hStrip : stripReturn ∘ (· ++ [carriageReturn]) = id := funext stripReturn_concat
  rw [hStrip, List.map_id, List.map_cons, List.map_nil, hBlank, List.singleton_append, takeWhile_append_nil_cons hSome]

theorem length_blockBytes :
    (h.blockBytes values).length = ((h.fieldBytes values).map fun line => line.length + 2).sum + 2 := by
  have hLines : ∀ lines : List Bytes, (unlines (lines.map (· ++ [carriageReturn]))).length =
      (lines.map fun line => line.length + 2).sum := by
    intro lines
    induction lines with
    | nil => rfl
    | cons line lines ih =>
      simp only [List.map_cons, unlines_cons, List.length_append, List.length_cons, List.length_nil, ih, List.sum_cons]
      omega
  simp [blockBytes, hLines]

/-- The reader of header blocks finds the fields of the store. -/
theorem Built.parseHeaders_blockBytes (hBuilt : h.Built) (hValues : h.cookies.mapM Cookie.headerValue? = some values)
    {maxSize : Nat} (hSize : (h.blockBytes values).length ≤ maxSize + 2) :
    parseHeaders (h.blockBytes values) maxSize =
      .ok { fields := h.fields.map fun field => (field.1, trimText field.2) } := by
  have hFits : (({ maxSize } : HeaderBlock).size + ((h.fieldBytes values).map fun line => line.length + 2).sum) ≤
      ({ maxSize } : HeaderBlock).maxSize := by
    rw [length_blockBytes] at hSize
    simpa using hSize
  obtain ⟨block, hPush⟩ :=
    HeaderBlock.pushAll_of_fields (fun line hMem => (hBuilt.fieldBytes_lines hValues line hMem).2.2) hFits
  have hNodup :
      (fieldNames (({} : Headers).fields ++ h.fields.map fun field => (field.1, trimText field.2))).Nodup := by
    simpa [fieldNames, Function.comp_def] using (sound_of_built hBuilt).distinct
  have hHeaders := HeaderBlock.headers_of_pushAll_nil hPush
  rw [hBuilt.keptFields_fieldBytes hValues, insertAll_of_nodup hNodup] at hHeaders
  rw [parseHeaders, hBuilt.takeWhile_linesOf_blockBytes hValues, hPush]
  simp [Except.map, hHeaders]

end Block

/-- **What is written is read again.**  Let a store be filled through its checks, with cookies whose dates can be
written.  Then its head is written; its lines up to the first blank one are the status line, one line for each field
and one line for each cookie, and nothing is behind the blank line.  And what is left of the head when its first line is
dropped is read as the fields of the store, in their order, with the blanks at the ends of the values taken off, and as
nothing else. -/
theorem Built.parseHeaders_of_encodeHead (hBuilt : h.Built) (hDated : ∀ c ∈ h.cookies, c.IsDated) (version : Version)
    (status : Status) :
    ∃ values head block,
      h.cookies.mapM Cookie.headerValue? = some values ∧ encodeHead? version status h = some head ∧
      cutHead head = some (Utf8.ofText (statusText version status) :: h.fieldBytes values, []) ∧
      cutFirst lineFeed head = some (Utf8.ofText (statusText version status) ++ [carriageReturn], block) ∧
      ∀ maxSize, block.length ≤ maxSize + 2 →
        parseHeaders block maxSize = .ok { fields := h.fields.map fun field => (field.1, trimText field.2) } := by
  obtain ⟨head, hHead⟩ : ∃ head, encodeHead? version status h = some head := exists_encodeHead_iff.mpr hDated
  obtain ⟨values, hValues, hCut⟩ := cutHead_of_encodeHead (sound_of_built hBuilt) hHead []
  rw [List.append_nil, lines_headTexts] at hCut
  refine ⟨values, head, h.blockBytes values, hValues, hHead, hCut, ?_, fun maxSize =>
    hBuilt.parseHeaders_blockBytes hValues⟩
  obtain ⟨values', hValues', rfl⟩ := lines_of_encodeHead hHead
  obtain rfl := Option.some.inj (hValues.symm.trans hValues')
  have hStatus : lineFeed ∉ Utf8.ofText (statusText version status) ++ [carriageReturn] := by
    have hText := Utf8.not_mem_ofText (not_mem_of_isFieldValue (isFieldValue_statusText version status))
    have hReturn : lineFeed ≠ carriageReturn := by decide
    simpa using ⟨hText, hReturn⟩
  refine cutFirst_eq_some_iff.mpr ⟨?_, hStatus⟩
  simp [headTexts, blockBytes, fieldBytes, writtenFields, Function.comp_def]

/-- A store with an empty value, a value with blanks at its ends and a colon in it, and two cookies. -/
def mixedStore : Headers where
  fields := [("X-Empty", ""), ("X-Forged", " Set-Cookie: a=b\u00a0")]
  cookies :=
    [{ name := "id", value := "1=2", path := some "/ Secure", maxAge := some 0,
        expires := some { second := 784111777, part := 500000000 } },
      { name := "theme", value := "", httpOnly := true }]

/-- The values come back without the blanks, and the cookies are left out. -/
theorem parseHeaders_mixedStore :
    mixedStore.Built ∧ (∀ c ∈ mixedStore.cookies, c.IsDated) ∧
      ∃ values head block,
        mixedStore.cookies.mapM Cookie.headerValue? = some values ∧
        encodeHead? .http11 .ok mixedStore = some head ∧
        cutHead head = some (Utf8.ofText "HTTP/1.1 200 OK" :: mixedStore.fieldBytes values, []) ∧
        cutFirst lineFeed head = some (Utf8.ofText "HTTP/1.1 200 OK" ++ [carriageReturn], block) ∧
        ∀ maxSize, block.length ≤ maxSize + 2 →
          parseHeaders block maxSize = .ok { fields := [("X-Empty", ""), ("X-Forged", "Set-Cookie: a=b")] } := by
  have hBuilt : mixedStore.Built := by
    have hFirst : ({} : Headers).set "x-empty" "" = (.ok (), { fields := [("X-Empty", "")] }) := by decide
    have hSecond : ({ fields := [("X-Empty", "")] } : Headers).set "X-FORGED" " Set-Cookie: a=b\u00a0" =
        (.ok (), { fields := mixedStore.fields }) := by decide
    have hCookie : ({ fields := mixedStore.fields } : Headers).setCookie mixedStore.cookies[0] =
        (.ok (), { fields := mixedStore.fields, cookies := [mixedStore.cookies[0]] }) := by decide
    have hLast : ({ fields := mixedStore.fields, cookies := [mixedStore.cookies[0]] } : Headers).setCookie
        mixedStore.cookies[1] = (.ok (), mixedStore) := by decide
    exact (((Built.empty.set hFirst).set hSecond).setCookie hCookie).setCookie hLast
  have hDated : ∀ c ∈ mixedStore.cookies, c.IsDated := by
    simp only [mixedStore, List.mem_cons, List.not_mem_nil, or_false]
    rintro c (rfl | rfl)
    · intro _ expiry hExpiry
      obtain rfl := Option.some.inj hExpiry
      decide
    · intro _ expiry hExpiry
      cases hExpiry
  have hStatus : statusText .http11 .ok = "HTTP/1.1 200 OK" := by decide
  have hTrimmed : mixedStore.fields.map (fun field => (field.1, trimText field.2)) =
      [("X-Empty", ""), ("X-Forged", "Set-Cookie: a=b")] := by decide
  have hRead := hBuilt.parseHeaders_of_encodeHead hDated .http11 .ok
  rw [hStatus, hTrimmed] at hRead
  exact ⟨hBuilt, hDated, hRead⟩

end Headers
end HttpServer
