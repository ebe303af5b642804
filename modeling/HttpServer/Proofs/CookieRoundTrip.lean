import HttpServer.Proofs.HeadRoundTrip

/-!
# Cookies as a client reads them

A client takes the value of a `Set-Cookie` line apart at its semicolons, and each part at its first equals sign.  What
it finds is the name and the value of the cookie and the attributes that the cookie has, in the order in which they are
written, whatever stands in the value, the domain and the path (`Cookie.read_headerValue`).

The attributes of a cookie are a table with one row for each name (`Cookie.table`).  The rows that are filled are
written, and a client that looks for a name finds the row again.
-/

namespace HttpServer

/-! ## The reader of a line -/

/-- Take one leading blank off. -/
def dropSpace : List Char → List Char
  | ' ' :: cs => cs
  | cs => cs

/-- The parts of a line between its semicolons, each of the later ones without one leading blank. -/
def setCookieParts (line : String) : List String :=
  match splitOn ';' line.toList with
  | [] => []
  | first :: later => String.ofList first :: later.map fun part => String.ofList (dropSpace part)

/-- A part is a name, with a text behind the first equals sign if it has one. -/
def readPart (part : String) : String × Option String :=
  match cutFirst '=' part.toList with
  | some (name, text) => (String.ofList name, some (String.ofList text))
  | none => (part, none)

/-- The part that is written for a name and the text behind it. -/
def writePart : String × Option String → String
  | (name, none) => name
  | (name, some text) => name ++ "=" ++ text

theorem readPart_writePart {name : String} (h : '=' ∉ name.toList) (text : Option String) :
    readPart (writePart (name, text)) = (name, text) := by
  cases text with
  | none =>
    have hCut : cutFirst '=' name.toList = none := cutFirst_eq_none_iff.mpr h
    simp [readPart, writePart, hCut]
  | some text =>
    have hCut : cutFirst '=' (name ++ "=" ++ text).toList = some (name.toList, text.toList) :=
      cutFirst_eq_some_iff.mpr ⟨by simp, h⟩
    rw [writePart, readPart, hCut]
    simp

/-- Parts without semicolons are found again on the line that is made of them. -/
theorem setCookieParts_foldl {first : String} {later : List String} (hFirst : ';' ∉ first.toList)
    (hLater : ∀ part ∈ later, ';' ∉ part.toList) :
    setCookieParts (later.foldl (fun line part => line ++ "; " ++ part) first) = first :: later := by
  have hChars : (later.foldl (fun line part => line ++ "; " ++ part) first).toList =
      first.toList ++ (later.map fun part => ' ' :: part.toList).flatMap (';' :: ·) := by
    clear hFirst hLater
    induction later generalizing first with
    | nil => simp
    | cons part later ih => simp [ih]
  have hParts : ∀ part ∈ later.map fun part => ' ' :: part.toList, ';' ∉ part := by
    simp only [List.mem_map]
    rintro _ ⟨part, hMem, rfl⟩
    simpa using hLater part hMem
  have hSame : (fun part => String.ofList (dropSpace part)) ∘ (fun part : String => ' ' :: part.toList) = id :=
    funext fun part => String.ofList_toList
  rw [setCookieParts, hChars, splitOn_append_flatMap hFirst hParts]
  dsimp only
  rw [List.map_map, hSame, List.map_id, String.ofList_toList]

/-! ## Tables of attributes -/

section Tables

variable {table : List (String × Option (Option String))}

/-- The rows of a table that are filled. -/
def filled (table : List (String × Option (Option String))) : List (String × Option String) :=
  table.filterMap fun row => row.2.map fun text => (row.1, text)

theorem filled_cons (row : String × Option (Option String)) :
    filled (row :: table) = (row.2.map fun text => (row.1, text)).toList ++ filled table := by
  unfold filled
  rw [List.filterMap_cons]
  cases row.2 with
  | none => rfl
  | some text => rfl

/-- If no two rows have the same name, a row is found by its name, and one that is not filled is not found. -/
theorem lookup_filled (h : (table.map (·.1)).Nodup) : ∀ row ∈ table, (filled table).lookup row.1 = row.2 := by
  have hOther : ∀ (rest : List (String × Option (Option String))) (name : String),
      name ∉ rest.map (·.1) → (filled rest).lookup name = none := by
    intro rest name hName
    rw [List.lookup_eq_none_iff]
    intro part hPart
    obtain ⟨row, hRow, hText⟩ := List.mem_filterMap.mp hPart
    obtain ⟨text, -, rfl⟩ := Option.map_eq_some_iff.mp hText
    exact bne_iff_ne.mpr fun hEq => hName (hEq ▸ List.mem_map_of_mem hRow)
  induction table with
  | nil => simp
  | cons head table ih =>
    obtain ⟨name, entry⟩ := head
    rw [List.map_cons, List.nodup_cons] at h
    intro row hMem
    rw [filled_cons]
    rcases List.mem_cons.mp hMem with rfl | hRest
    · cases entry with
      | none => simpa using hOther table name h.1
      | some text => simp
    · have hName : (row.1 == name) = false := by
        have hFound : row.1 ∈ table.map (·.1) := List.mem_map_of_mem hRest
        exact beq_eq_false_iff_ne.mpr fun hEq => h.1 (hEq ▸ hFound)
      cases entry with
      | none => simpa using ih h.2 row hRest
      | some text => simpa [List.lookup_cons, hName] using ih h.2 row hRest

end Tables

/-! ## The attributes of a cookie -/

theorem SameSite.text_inj {a b : SameSite} (h : a.text = b.text) : a = b := by
  revert h
  cases a <;> cases b <;> decide

namespace Cookie

variable {c d : Cookie}

/-- The lifetime that is written. -/
def ageText (c : Cookie) : Option String :=
  (c.maxAge.filter (0 < ·)).map fun age => String.ofList (decimal age)

/-- The expiry that is written: none beside a lifetime. -/
def expiryText (c : Cookie) : Option String :=
  if c.ageText.isSome then none else c.expires.bind fun expiry => dateText? expiry.second

/-- The attributes in the order in which they are written, each with the text behind its name. -/
def table (c : Cookie) : List (String × Option (Option String)) :=
  [("Max-Age", c.ageText.map some), ("Expires", c.expiryText.map some), ("Domain", c.domain.map some),
    ("Path", c.path.map some), ("HttpOnly", if c.httpOnly then some none else none),
    ("Secure", if c.secure then some none else none), ("SameSite", (c.sameSite.map (·.text)).map some)]

/-- The attributes that are written. -/
def written (c : Cookie) : List (String × Option String) :=
  filled c.table

/-- The names of the rows. -/
def attributeNames : List String :=
  ["Max-Age", "Expires", "Domain", "Path", "HttpOnly", "Secure", "SameSite"]

theorem map_fst_table (c : Cookie) : c.table.map (·.1) = attributeNames :=
  rfl

theorem lookup_written (c : Cookie) : ∀ row ∈ c.table, c.written.lookup row.1 = row.2 := by
  have hNames : attributeNames.Nodup := by decide
  exact lookup_filled hNames

theorem map_writePart_text (name : String) (text : Option String) :
    ((text.map some).map fun text => (name, text)).toList.map writePart = (text.map (name ++ "=" ++ ·)).toList := by
  cases text with
  | none => rfl
  | some text => rfl

theorem map_writePart_flag (name : String) (flag : Bool) :
    ((if flag then some none else none : Option (Option String)).map fun text => (name, text)).toList.map writePart =
      if flag then [name] else [] := by
  cases flag with
  | false => rfl
  | true => rfl

theorem lifetime_of_isDated (h : c.IsDated) :
    ∃ lifetime, c.lifetime? = some lifetime ∧
      lifetime.toList = (c.ageText.map ("Max-Age=" ++ ·)).toList ++ (c.expiryText.map ("Expires=" ++ ·)).toList := by
  unfold lifetime? expiryText ageText
  cases hAge : c.maxAge.filter (0 < ·) with
  | some age => exact ⟨_, rfl, rfl⟩
  | none =>
    cases hExpires : c.expires with
    | none => exact ⟨_, rfl, rfl⟩
    | some expiry =>
      obtain ⟨date, hDate⟩ := exists_dateText_iff.mpr (h hAge expiry hExpires)
      exact ⟨some ("Expires=" ++ date), by simp [hDate], by simp [hDate]⟩

/-- A cookie that can be written is written with the attributes of its table. -/
theorem attributes_of_isDated (h : c.IsDated) : c.attributes? = some (c.written.map writePart) := by
  obtain ⟨lifetime, hLifetime, hTexts⟩ := lifetime_of_isDated h
  have hLabels : "Max-Age" ++ "=" = "Max-Age=" ∧ "Expires" ++ "=" = "Expires=" ∧ "Domain" ++ "=" = "Domain=" ∧
      "Path" ++ "=" = "Path=" ∧ "SameSite" ++ "=" = "SameSite=" := by decide
  obtain ⟨hMaxAge, hExpires, hDomain, hPath, hSameSite⟩ := hLabels
  have hNil : filled [] = [] := rfl
  have hRows : c.written.map writePart = lifetime.toList ++ (c.domain.map ("Domain=" ++ ·)).toList ++
      (c.path.map ("Path=" ++ ·)).toList ++ (if c.httpOnly then ["HttpOnly"] else []) ++
      (if c.secure then ["Secure"] else []) ++ ((c.sameSite.map (·.text)).map ("SameSite=" ++ ·)).toList := by
    simp only [written, table, filled_cons, hNil, List.map_append, map_writePart_text, map_writePart_flag, hMaxAge,
      hExpires, hDomain, hPath, hSameSite, hTexts, List.append_assoc, List.append_nil]
  rw [hRows, Option.map_map]
  simp only [attributes?, hLifetime, Option.bind_eq_bind, Option.bind_some, Option.pure_def]
  rfl

theorem not_mem_of_isPart {text : String} (h : isPart text = true) : ';' ∉ text.toList := by
  simp only [isPart, Bool.and_eq_true, Bool.not_eq_true'] at h
  simpa using h.2

/-- The texts behind the names hold no semicolon, if the cookie was checked. -/
theorem not_mem_text_of_validate (hValid : c.validate = .ok ()) :
    ∀ row ∈ c.table, ∀ text, row.2 = some (some text) → ';' ∉ text.toList := by
  obtain ⟨-, -, hDomain, hPath⟩ := parts_of_validate hValid
  have hAge : ∀ text, c.ageText = some text → ';' ∉ text.toList := by
    intro text hText
    obtain ⟨age, -, rfl⟩ := Option.map_eq_some_iff.mp hText
    rw [String.toList_ofList]
    exact fun hMem => absurd (isDigit_of_mem_decimal hMem) (by decide)
  have hExpiry : ∀ text, c.expiryText = some text → ';' ∉ text.toList := by
    intro text hText
    unfold expiryText at hText
    split at hText
    · cases hText
    · obtain ⟨expiry, -, hDate⟩ := Option.bind_eq_some_iff.mp hText
      exact fun hMem => absurd (List.all_eq_true.mp (all_isDateChar_of_dateText hDate) _ hMem) (by decide)
  have hFree : ∀ free : Option String, free.all isPart = true → ∀ text, free = some text → ';' ∉ text.toList := by
    rintro _ hPart text rfl
    exact not_mem_of_isPart hPart
  have hSite : ∀ text, c.sameSite.map (·.text) = some text → ';' ∉ text.toList := by
    intro text hText
    obtain ⟨site, -, rfl⟩ := Option.map_eq_some_iff.mp hText
    cases site <;> decide
  have hNone : ∀ (flag : Bool) (text : String), (if flag then some none else none) ≠ some (some text) := by
    rintro (_ | _) text <;> simp
  intro row hRow text hText
  simp only [table, List.mem_cons, List.not_mem_nil, or_false] at hRow
  rcases hRow with rfl | rfl | rfl | rfl | rfl | rfl | rfl
  · exact hAge text (by simpa using hText)
  · exact hExpiry text (by simpa using hText)
  · exact hFree c.domain hDomain text (by simpa using hText)
  · exact hFree c.path hPath text (by simpa using hText)
  · exact absurd hText (hNone _ _)
  · exact absurd hText (hNone _ _)
  · exact hSite text (by simpa using hText)

/-- So the parts that are written for them do not run into each other, and their names end where they should. -/
theorem not_mem_of_mem_written (hValid : c.validate = .ok ()) {part : String × Option String} (h : part ∈ c.written) :
    '=' ∉ part.1.toList ∧ ';' ∉ (writePart part).toList := by
  have hNames : ∀ name ∈ attributeNames, '=' ∉ name.toList ∧ ';' ∉ name.toList := by decide
  obtain ⟨row, hRow, hPart⟩ := List.mem_filterMap.mp h
  obtain ⟨text, hText, rfl⟩ := Option.map_eq_some_iff.mp hPart
  obtain ⟨hEquals, hSemicolon⟩ := hNames row.1 (c.map_fst_table ▸ List.mem_map_of_mem hRow)
  refine ⟨hEquals, ?_⟩
  cases text with
  | none => exact hSemicolon
  | some text =>
    have hText := not_mem_text_of_validate hValid row hRow text hText
    simpa [writePart] using ⟨hSemicolon, hText⟩

/-- The pair in front holds no semicolon either, and its name no equals sign. -/
theorem not_mem_pair_of_validate (hValid : c.validate = .ok ()) :
    '=' ∉ c.name.toList ∧ ';' ∉ (writePart (c.name, some c.value)).toList := by
  obtain ⟨hToken, hValue, -, -⟩ := parts_of_validate hValid
  have hMarks : isTokenChar '=' = false ∧ isTokenChar ';' = false := by decide
  simp only [isToken, Bool.and_eq_true, List.all_eq_true] at hToken
  have hEquals : '=' ∉ c.name.toList := fun hMem => by simpa [hMarks.1] using hToken.2 _ hMem
  have hSemicolon : ';' ∉ c.name.toList := fun hMem => by simpa [hMarks.2] using hToken.2 _ hMem
  refine ⟨hEquals, ?_⟩
  simpa [writePart] using ⟨hSemicolon, not_mem_of_isPart hValue⟩

/-! ## What a line tells of its cookie -/

/-- Two cookies have the same name and value and the same attributes, as far as they are written.  Of an expiry only
the second is. -/
structure Agrees (c d : Cookie) : Prop where
  name : c.name = d.name
  value : c.value = d.value
  /-- A lifetime of zero is not written. -/
  maxAge : c.maxAge.filter (0 < ·) = d.maxAge.filter (0 < ·)
  /-- An expiry is not written beside a lifetime. -/
  expires : c.maxAge.filter (0 < ·) = none → c.expires.map Instant.second = d.expires.map Instant.second
  domain : c.domain = d.domain
  path : c.path = d.path
  httpOnly : c.httpOnly = d.httpOnly
  secure : c.secure = d.secure
  sameSite : c.sameSite = d.sameSite

/-- The rows that are filled tell the table. -/
theorem table_eq_of_written (h : c.written = d.written) : c.table = d.table := by
  have hTable : ∀ c : Cookie, c.table = attributeNames.map fun name => (name, c.written.lookup name) := by
    intro c
    rw [← c.map_fst_table, List.map_map]
    have hRows : ∀ row ∈ c.table, ((fun name => (name, c.written.lookup name)) ∘ (·.1)) row = id row :=
      fun row hRow => Prod.ext rfl (c.lookup_written row hRow)
    rw [List.map_congr_left hRows, List.map_id]
  rw [hTable c, hTable d, h]

/-- A date that is written tells its second, and one that is not written is not there. -/
theorem second_of_expiryText (hc : c.IsDated) (hd : d.IsDated) (hcNone : c.maxAge.filter (0 < ·) = none)
    (hdNone : d.maxAge.filter (0 < ·) = none) (h : c.expiryText = d.expiryText) :
    c.expires.map Instant.second = d.expires.map Instant.second := by
  have hText : ∀ {c : Cookie}, c.maxAge.filter (0 < ·) = none →
      c.expiryText = c.expires.bind fun expiry => dateText? expiry.second := by
    intro c hNone
    simp [expiryText, ageText, hNone]
  have hDate : ∀ {c : Cookie}, c.IsDated → c.maxAge.filter (0 < ·) = none → ∀ expiry, c.expires = some expiry →
      ∃ date, dateText? expiry.second = some date := by
    exact fun hDated hNone expiry hExpiry => exists_dateText_iff.mpr (hDated hNone expiry hExpiry)
  rw [hText hcNone, hText hdNone] at h
  cases hcExpires : c.expires with
  | none =>
    cases hdExpires : d.expires with
    | none => rfl
    | some expiry =>
      obtain ⟨date, hSome⟩ := hDate hd hdNone expiry hdExpires
      simp [hcExpires, hdExpires, hSome] at h
  | some expiry =>
    obtain ⟨date, hSome⟩ := hDate hc hcNone expiry hcExpires
    rw [hcExpires, Option.bind_some, hSome] at h
    obtain ⟨other, hdExpires, hOther⟩ := Option.bind_eq_some_iff.mp h.symm
    rw [hdExpires, Option.map_some, Option.map_some, eq_of_dateText hSome hOther]

/-- The table tells the attributes, as far as they are written. -/
theorem agrees_of_table (hc : c.IsDated) (hd : d.IsDated) (hName : c.name = d.name) (hValue : c.value = d.value)
    (h : c.table = d.table) : c.Agrees d := by
  have hSome : ∀ {o p : Option String}, o.map some = p.map some → o = p :=
    fun h => Option.map_injective (Option.some_injective _) h
  have hFlag : ∀ {a b : Bool},
      (if a then some none else none : Option (Option String)) = (if b then some none else none) → a = b := by
    rintro (_ | _) (_ | _) <;> simp
  simp only [table, List.cons.injEq, Prod.mk.injEq, true_and, and_true] at h
  obtain ⟨hAge, hExpiry, hDomain, hPath, hHttpOnly, hSecure, hSameSite⟩ := h
  have hMaxAge : c.maxAge.filter (0 < ·) = d.maxAge.filter (0 < ·) := by
    refine Option.map_injective (fun a b hText => ?_) (hSome hAge)
    exact decimal_inj (String.ofList_injective hText)
  exact {
    name := hName
    value := hValue
    maxAge := hMaxAge
    expires := fun hNone => second_of_expiryText hc hd hNone (hMaxAge ▸ hNone) (hSome hExpiry)
    domain := hSome hDomain
    path := hSome hPath
    httpOnly := hFlag hHttpOnly
    secure := hFlag hSecure
    sameSite := Option.map_injective (fun _ _ => SameSite.text_inj) (hSome hSameSite) }

/-- Cookies that agree are written alike. -/
theorem Agrees.headerValue_eq (h : c.Agrees d) : c.headerValue? = d.headerValue? := by
  have hLifetime : c.lifetime? = d.lifetime? := by
    rw [lifetime?, lifetime?, ← h.maxAge]
    cases hAge : c.maxAge.filter (0 < ·) with
    | some age => rfl
    | none =>
      have hSecond := h.expires hAge
      cases hcExpires : c.expires with
      | none =>
        rw [hcExpires, Option.map_none, eq_comm, Option.map_eq_none_iff] at hSecond
        rw [hSecond]
      | some expiry =>
        rw [hcExpires, Option.map_some, eq_comm, Option.map_eq_some_iff] at hSecond
        obtain ⟨other, hdExpires, hSame⟩ := hSecond
        rw [hdExpires]
        dsimp only
        rw [hSame]
  simp only [headerValue?, attributes?, hLifetime, h.name, h.value, h.domain, h.path, h.httpOnly, h.secure, h.sameSite]

/-- What stands between the semicolons of a line, and what is read there. -/
theorem parts_of_headerValue (hValid : c.validate = .ok ()) {line : String} (h : c.headerValue? = some line) :
    setCookieParts line = (c.name ++ "=" ++ c.value) :: c.written.map writePart ∧
      (setCookieParts line).map readPart = (c.name, some c.value) :: c.written := by
  have hDated := exists_headerValue_iff.mp ⟨line, h⟩
  obtain ⟨hName, hPair⟩ := not_mem_pair_of_validate hValid
  have hLine : (c.written.map writePart).foldl (fun line part => line ++ "; " ++ part) (c.name ++ "=" ++ c.value) =
      line := by
    simpa [headerValue?, attributes_of_isDated hDated] using h
  have hParts : setCookieParts line = (c.name ++ "=" ++ c.value) :: c.written.map writePart := by
    rw [← hLine]
    refine setCookieParts_foldl hPair fun part hPart => ?_
    obtain ⟨row, hRow, rfl⟩ := List.mem_map.mp hPart
    exact (not_mem_of_mem_written hValid hRow).2
  have hRead : ∀ part ∈ c.written, (readPart ∘ writePart) part = id part :=
    fun part hPart => readPart_writePart (not_mem_of_mem_written hValid hPart).1 part.2
  refine ⟨hParts, ?_⟩
  rw [hParts, List.map_cons, List.map_map, List.map_congr_left hRead, List.map_id]
  exact congrArg (· :: c.written) (readPart_writePart hName (some c.value))

/-- **A line tells what its cookie is.**  Take a cookie that was checked and whose expiry can be written, if it is to
be.  The parts between the semicolons of its line are the pair and then its attributes, in their order; read at their
first equals signs they give back the name, the value and the rows of the table that are filled; a row that is not
filled is not found by its name.  So the other checked cookies with the same line are those that agree with it in all
that is written, an expiry up to its second. -/
theorem read_headerValue (hValid : c.validate = .ok ()) (hDated : c.IsDated) :
    ∃ line, c.headerValue? = some line ∧
      setCookieParts line = (c.name ++ "=" ++ c.value) :: c.written.map writePart ∧
      (setCookieParts line).map readPart = (c.name, some c.value) :: c.written ∧
      (∀ row ∈ c.table, ((setCookieParts line).tail.map readPart).lookup row.1 = row.2) ∧
      ∀ d : Cookie, d.validate = .ok () → (d.headerValue? = some line ↔ c.Agrees d) := by
  obtain ⟨line, hLine⟩ := exists_headerValue_iff.mpr hDated
  obtain ⟨hParts, hRead⟩ := parts_of_headerValue hValid hLine
  refine ⟨line, hLine, hParts, hRead, fun row hRow => ?_, fun d hValid' => ⟨fun hLine' => ?_, fun hAgrees => ?_⟩⟩
  · rw [List.map_tail, hRead, List.tail_cons]
    exact c.lookup_written row hRow
  · have hSame := hRead.symm.trans (parts_of_headerValue hValid' hLine').2
    simp only [List.cons.injEq, Prod.mk.injEq, Option.some.injEq] at hSame
    obtain ⟨⟨hName, hValue⟩, hWritten⟩ := hSame
    exact agrees_of_table hDated (exists_headerValue_iff.mp ⟨line, hLine'⟩) hName hValue (table_eq_of_written hWritten)
  · rw [← hAgrees.headerValue_eq, hLine]

/-- A cookie whose value, domain and path look like attributes; its lifetime of zero gives way to its expiry. -/
def crowded : Cookie where
  name := "id"
  value := " a=b, Max-Age=1"
  domain := some "x Path=/"
  path := some " /=Secure"
  maxAge := some 0
  expires := some { second := 784111777, part := 250000000 }
  secure := true

theorem read_headerValue_crowded :
    ∃ line, crowded.headerValue? = some line ∧
      line = "id= a=b, Max-Age=1; Expires=Sun, 06 Nov 1994 08:49:37 GMT; Domain=x Path=/; Path= /=Secure; Secure" ∧
      (setCookieParts line).map readPart =
        [("id", some " a=b, Max-Age=1"), ("Expires", some "Sun, 06 Nov 1994 08:49:37 GMT"),
          ("Domain", some "x Path=/"), ("Path", some " /=Secure"), ("Secure", none)] ∧
      ((setCookieParts line).tail.map readPart).lookup "Max-Age" = none := by
  have hValid : crowded.validate = .ok () := by decide
  have hDated : crowded.IsDated := by
    intro _ expiry hExpiry
    obtain rfl := Option.some.inj hExpiry
    decide
  obtain ⟨line, hLine, -, hRead, hFound, -⟩ := read_headerValue hValid hDated
  have hText : crowded.headerValue? =
      some "id= a=b, Max-Age=1; Expires=Sun, 06 Nov 1994 08:49:37 GMT; Domain=x Path=/; Path= /=Secure; Secure" := by
    decide +kernel
  have hWritten : crowded.written = [("Expires", some "Sun, 06 Nov 1994 08:49:37 GMT"), ("Domain", some "x Path=/"),
      ("Path", some " /=Secure"), ("Secure", none)] := by
    decide +kernel
  refine ⟨line, hLine, Option.some.inj (hLine.symm.trans hText), hRead.trans (congrArg _ hWritten), ?_⟩
  exact hFound ("Max-Age", none) (by simp [table, ageText, crowded])

/-- Two cookies that expire within one second have the same line, and do not expire at the same instant. -/
theorem same_headerValue_within_second :
    let c : Cookie := { name := "id", value := "1", expires := some { second := 0, part := 100000000 } }
    let d : Cookie := { name := "id", value := "1", expires := some { second := 0, part := 200000000 } }
    (c.validate = .ok () ∧ c.IsDated) ∧ (d.validate = .ok () ∧ d.IsDated) ∧
      c.headerValue? = some "id=1; Expires=Thu, 01 Jan 1970 00:00:00 GMT" ∧ c.headerValue? = d.headerValue? ∧
      c.expires ≠ d.expires := by
  intro c d
  have hRange : (0 : Int) ≤ 0 ∧ 0 < dateEnd := by decide
  have hDated : c.IsDated ∧ d.IsDated := by
    constructor
    all_goals
      intro _ expiry hExpiry
      obtain rfl := Option.some.inj hExpiry
      exact hRange
  exact ⟨⟨by decide, hDated.1⟩, ⟨by decide, hDated.2⟩, by decide +kernel, by decide +kernel, by decide⟩

end Cookie

end HttpServer
