import HttpServer.Headers.Block
import HttpServer.Proofs.FieldStore
import HttpServer.Proofs.Lines
import HttpServer.Proofs.Trimming
import HttpServer.Proofs.Utf8

/-!
# What the lines of a header block say

`HeaderBlock.push` reads one line at a time and remembers which field is open.  Here a line is looked at on its own
(`headerLine`), and a list of lines is read in one go: `keptFields` lists the fields that the lines bring, each with
the texts of its continuation lines already in its value.

`push_cases` says all that one line can do to a block, and `headers_of_pushAll` that the lines as a whole do what
`keptFields` says: its fields are stored one by one, so the last of several with one name stays.
-/

namespace HttpServer

/-- A line of a header block, looked at on its own. -/
inductive HeaderLine where
  /-- The line is not UTF-8. -/
  | undecodable
  /-- The line begins with a space or a tab. -/
  | continuation (text : List Char)
  /-- The name before the first colon, and the trimmed value behind it. -/
  | field (name value : String)
  /-- The line has no colon. -/
  | malformed (text : List Char)
  deriving DecidableEq, Repr

/-- What a line is. -/
def headerLine (line : Bytes) : HeaderLine :=
  match Utf8.decode? line with
  | none => .undecodable
  | some cs =>
    if HeaderBlock.isContinuation cs then .continuation cs
    else
      match cutFirst ':' cs with
      | none => .malformed cs
      | some (name, value) => .field (String.ofList name) (String.ofList (trim value))

/-- The text that a continuation line adds to a value; blank texts and those that no value may hold add none. -/
def foldedText? (text : List Char) : Option String :=
  let extra := String.ofList (trim text)
  if extra.isEmpty || !isFieldValue extra then none else some extra

/-- The texts of the continuation lines at the front. -/
def foldedTexts : List Bytes → List String
  | [] => []
  | line :: lines =>
    match headerLine line with
    | .continuation text => (foldedText? text).toList ++ foldedTexts lines
    | _ => []

/-- A value with the texts of continuation lines behind it. -/
def joinAll (value : String) (texts : List String) : String :=
  texts.foldl Headers.joinFolded value

/-- The fields that lines bring, in order, with names in canonical case; a field that a client may not send is left
out together with its continuation lines. -/
def keptFields : List Bytes → List (String × String)
  | [] => []
  | line :: lines =>
    match headerLine line with
    | .field name value =>
      if HeaderBlock.isAcceptable name value then
        (canonicalName name, joinAll value (foldedTexts lines)) :: keptFields lines
      else keptFields lines
    | _ => keptFields lines

namespace HeaderBlock

variable {b b' : HeaderBlock} {line : Bytes} {lines : List Bytes}

theorem push_of_full (hFull : b.maxSize < b.size + (line.length + 2)) :
    b.push line = (.error (.limitExceeded .headerBlock), { b with size := b.size + (line.length + 2) }) := by
  simp [push, hFull]

/-- What a block does with a continuation line. -/
theorem continueField_eq (b : HeaderBlock) (cs : List Char) :
    b.continueField cs =
      match b.openField with
      | none => (.error (.parse (.malformedHeader (String.ofList cs))), b)
      | some name => (.ok (), { b with headers := (foldedText? cs).elim b.headers (b.headers.appendFolded name) }) := by
  obtain ⟨headers, openField, size, maxSize⟩ := b
  cases openField with
  | none => rfl
  | some name =>
    simp only [continueField, foldedText?]
    split <;> rfl

/-- What a block does with a line that fits, by what the line is. -/
theorem push_of_fits (hFits : b.size + (line.length + 2) ≤ b.maxSize) :
    b.push line =
      let b := { b with size := b.size + (line.length + 2) }
      match headerLine line with
      | .undecodable => (.ok (), { b with openField := none })
      | .continuation text => b.continueField text
      | .malformed text => (.error (.parse (.malformedHeader (String.ofList text))), b)
      | .field name value =>
        if isAcceptable name value then
          (.ok (),
            { b with headers := b.headers.insert (canonicalName name) value, openField := some (canonicalName name) })
        else (.ok (), { b with openField := none }) := by
  have hFull : ¬b.maxSize < b.size + (line.length + 2) := by omega
  unfold push headerLine
  dsimp only
  rw [if_neg hFull]
  cases hDecode : Utf8.decode? line with
  | none => rfl
  | some cs =>
    dsimp only
    cases hCont : isContinuation cs with
    | true => simp
    | false =>
      simp only [Bool.false_eq_true, if_false, startField]
      cases hCut : cutFirst ':' cs <;> rfl

/-- A line that is an error is counted and does nothing else. -/
theorem push_error {e : Error} (h : b.push line = (.error e, b')) :
    b' = { b with size := b.size + (line.length + 2) } ∧
      (e = .limitExceeded .headerBlock ∨ ∃ text, e = .parse (.malformedHeader text)) := by
  rcases Nat.lt_or_ge b.maxSize (b.size + (line.length + 2)) with hFull | hFits
  · rw [push_of_full hFull] at h
    cases h
    exact ⟨rfl, .inl rfl⟩
  rw [push_of_fits hFits] at h
  cases hLine : headerLine line with
  | undecodable => simp [hLine] at h
  | malformed text =>
    simp only [hLine, Prod.mk.injEq, Except.error.injEq] at h
    exact ⟨h.2.symm, .inr ⟨_, h.1.symm⟩⟩
  | continuation text =>
    simp only [hLine, continueField_eq] at h
    cases hOpen : b.openField with
    | none =>
      simp only [hOpen, Prod.mk.injEq, Except.error.injEq] at h
      exact ⟨h.2.symm, .inr ⟨_, h.1.symm⟩⟩
    | some name => simp [hOpen] at h
  | field name value =>
    simp only [hLine] at h
    split at h <;> simp at h

/-- All that a line can do to a block that goes on: it is counted, and it extends the open field, begins one, or
leaves none open. -/
theorem push_cases (h : b.push line = (.ok (), b')) :
    b'.size = b.size + (line.length + 2) ∧ b'.maxSize = b.maxSize ∧ b'.size ≤ b.maxSize ∧
      (headerLine line = .undecodable ∧ b'.headers = b.headers ∧ b'.openField = none ∨
        (∃ text name, headerLine line = .continuation text ∧ b.openField = some name ∧
          b'.headers = (foldedText? text).elim b.headers (b.headers.appendFolded name) ∧
          b'.openField = some name) ∨
        (∃ name value, headerLine line = .field name value ∧ isAcceptable name value = true ∧
          b'.headers = b.headers.insert (canonicalName name) value ∧
          b'.openField = some (canonicalName name)) ∨
        ∃ name value, headerLine line = .field name value ∧ isAcceptable name value = false ∧
          b'.headers = b.headers ∧ b'.openField = none) := by
  rcases Nat.lt_or_ge b.maxSize (b.size + (line.length + 2)) with hFull | hFits
  · simp [push_of_full hFull] at h
  rw [push_of_fits hFits] at h
  cases hLine : headerLine line with
  | undecodable =>
    simp only [hLine, Prod.mk.injEq, true_and] at h
    subst h
    exact ⟨rfl, rfl, hFits, .inl ⟨rfl, rfl, rfl⟩⟩
  | malformed text => simp [hLine] at h
  | continuation text =>
    simp only [hLine, continueField_eq] at h
    cases hOpen : b.openField with
    | none => simp [hOpen] at h
    | some name =>
      simp only [hOpen, Prod.mk.injEq, true_and] at h
      subst h
      exact ⟨rfl, rfl, hFits, .inr (.inl ⟨text, name, rfl, rfl, rfl, rfl⟩)⟩
  | field name value =>
    cases hAccept : isAcceptable name value with
    | true =>
      simp only [hLine, hAccept, if_true, Prod.mk.injEq, true_and] at h
      subst h
      exact ⟨rfl, rfl, hFits, .inr (.inr (.inl ⟨name, value, rfl, hAccept, rfl, rfl⟩))⟩
    | false =>
      simp only [hLine, hAccept, Bool.false_eq_true, if_false, Prod.mk.injEq, true_and] at h
      subst h
      exact ⟨rfl, rfl, hFits, .inr (.inr (.inr ⟨name, value, rfl, hAccept, rfl, rfl⟩))⟩

theorem pushAll_cons_eq_ok_iff :
    b.pushAll (line :: lines) = .ok b' ↔ ∃ b₁, b.push line = (.ok (), b₁) ∧ b₁.pushAll lines = .ok b' := by
  rw [pushAll]
  rcases b.push line with ⟨_ | _, b₁⟩
  · simp
  · simp

/-- The block takes some lines, and the line behind them is the error at which it stops. -/
def StopsAt (b : HeaderBlock) (front : List Bytes) (line : Bytes) (e : Error) : Prop :=
  ∃ before, b.pushAll front = .ok before ∧ (before.push line).1 = .error e

/-- The size of a block that was read is the size of its lines, each with two bytes for its end. -/
theorem size_of_pushAll (h : b.pushAll lines = .ok b') (hStart : b.size ≤ b.maxSize) :
    b'.size = b.size + (lines.map fun line => line.length + 2).sum ∧ b'.size ≤ b.maxSize := by
  induction lines generalizing b with
  | nil =>
    simp only [pushAll, Except.ok.injEq] at h
    subst h
    simp [hStart]
  | cons line lines ih =>
    obtain ⟨b₁, hPush, hRest⟩ := pushAll_cons_eq_ok_iff.mp h
    obtain ⟨hSize, hMax, hFits, -⟩ := push_cases hPush
    obtain ⟨hSize', hFits'⟩ := ih hRest (by omega)
    simp only [List.map_cons, List.sum_cons]
    omega

end HeaderBlock

/-! ## Continuation lines -/

namespace Headers

variable {h : Headers} {name value text : String}

theorem fieldNames_appendFolded : fieldNames (h.appendFolded name text).fields = fieldNames h.fields := by
  simp only [fieldNames, appendFolded, List.map_map]
  refine List.map_congr_left fun field _ => ?_
  by_cases hName : field.1 = name <;> simp [hName]

private theorem map_joinFolded_of_not_mem {fields : List (String × String)} (h : name ∉ fieldNames fields) :
    (fields.map fun (n, v) => if n == name then (n, joinFolded v text) else (n, v)) = fields := by
  conv_rhs => rw [← List.map_id fields]
  refine List.map_congr_left fun field hField => ?_
  have hName : field.1 ≠ name := fun hEq => h (hEq ▸ List.mem_map_of_mem hField)
  simp [hName]

/-- A field that is stored and then continued is stored with the longer value. -/
theorem appendFolded_insert (hNodup : (fieldNames h.fields).Nodup) :
    (h.insert name value).appendFolded name text = h.insert name (joinFolded value text) := by
  obtain ⟨fields, cookies⟩ := h
  simp only [insert, appendFolded, Headers.mk.injEq, and_true]
  induction fields with
  | nil => simp [insertField]
  | cons field fields ih =>
    obtain ⟨n, v⟩ := field
    simp only [fieldNames, List.map_cons, List.nodup_cons] at hNodup
    by_cases hName : n = name
    · subst hName
      simp only [insertField, beq_self_eq_true, if_true, List.map_cons]
      rw [map_joinFolded_of_not_mem hNodup.1]
    · have hBeq : (n == name) = false := beq_false_of_ne hName
      simp only [insertField, hBeq, Bool.false_eq_true, if_false, List.map_cons]
      rw [ih hNodup.2]

/-- The field that is open takes texts of continuation lines. -/
def extend (h : Headers) (openField : Option String) (texts : List String) : Headers :=
  match openField with
  | none => h
  | some name => texts.foldl (fun h text => h.appendFolded name text) h

@[simp]
theorem extend_none (h : Headers) (texts : List String) : h.extend none texts = h :=
  rfl

@[simp]
theorem extend_nil (h : Headers) (openField : Option String) : h.extend openField [] = h := by
  cases openField <;> rfl

/-- A field that was just stored takes the texts into its value. -/
theorem extend_insert (hNodup : (fieldNames h.fields).Nodup) (texts : List String) :
    (h.insert name value).extend (some name) texts = h.insert name (joinAll value texts) := by
  induction texts generalizing value with
  | nil => rfl
  | cons text texts ih =>
    simp only [extend, joinAll, List.foldl_cons] at ih ⊢
    rw [appendFolded_insert hNodup, ih]

end Headers

/-! ## The fields of all lines -/

namespace HeaderBlock

variable {b b' : HeaderBlock} {lines : List Bytes}

/-- What a block holds in the end: the open field takes the continuation lines that come first, and then the fields
that the lines bring are stored one by one.  The induction is on the lines; what each of them may do is said by
`push_cases`. -/
theorem headers_of_pushAll (h : b.pushAll lines = .ok b') (hNodup : (fieldNames b.headers.fields).Nodup) :
    b'.headers = (b.headers.extend b.openField (foldedTexts lines)).insertAll (keptFields lines) := by
  induction lines generalizing b with
  | nil =>
    simp only [pushAll, Except.ok.injEq] at h
    subst h
    simp [foldedTexts, keptFields, Headers.insertAll]
  | cons line lines ih =>
    obtain ⟨b₁, hPush, hRest⟩ := pushAll_cons_eq_ok_iff.mp h
    obtain ⟨-, -, -, hCases⟩ := push_cases hPush
    rcases hCases with
      ⟨hLine, hHeaders, hOpen⟩ | ⟨text, name, hLine, hOpen, hHeaders, hOpen'⟩ |
      ⟨name, value, hLine, hAccept, hHeaders, hOpen⟩ | ⟨name, value, hLine, hRefuse, hHeaders, hOpen⟩
    -- A line that is not UTF-8 leaves no field open, so continuation lines behind it cannot occur.
    · rw [ih hRest (by rw [hHeaders]; exact hNodup), hHeaders, hOpen]
      simp [foldedTexts, keptFields, hLine]
    -- A continuation line goes to the field that is open.
    · have hNodup₁ : (fieldNames b₁.headers.fields).Nodup := by
        rw [hHeaders]
        cases foldedText? text with
        | none => exact hNodup
        | some extra =>
          rw [Option.elim_some, Headers.fieldNames_appendFolded]
          exact hNodup
      rw [ih hRest hNodup₁, hHeaders, hOpen, hOpen']
      simp only [foldedTexts, keptFields, hLine]
      cases foldedText? text <;> simp [Headers.extend]
    -- A field that is stored takes the continuation lines behind it into its value.
    · have hNodup₁ : (fieldNames b₁.headers.fields).Nodup := by
        rw [hHeaders]
        exact Headers.nodup_insertField hNodup
      rw [ih hRest hNodup₁, hHeaders, hOpen, Headers.extend_insert hNodup]
      simp [foldedTexts, keptFields, hLine, hAccept, Headers.insertAll]
    -- A field that is dropped leaves the block as it is.
    · rw [ih hRest (by rw [hHeaders]; exact hNodup), hHeaders, hOpen]
      simp [foldedTexts, keptFields, hLine, hRefuse]

/-- The same for a block that starts empty. -/
theorem headers_of_pushAll_nil {maxSize : Nat} (h : pushAll { maxSize } lines = .ok b') :
    b'.headers = ({} : Headers).insertAll (keptFields lines) := by
  simpa using headers_of_pushAll h (by simp [fieldNames])

end HeaderBlock

/-! ## What is kept -/

variable {before after lines : List Bytes} {line : Bytes} {name value : String}

theorem isCanonical_keptFields (lines : List Bytes) : IsCanonical (keptFields lines) := by
  induction lines with
  | nil => simp [IsCanonical, fieldNames, keptFields]
  | cons line lines ih =>
    unfold keptFields
    split
    · split
      · intro n hn
        simp only [fieldNames, List.map_cons, List.mem_cons] at hn
        rcases hn with rfl | hn
        · simp
        · exact ih n hn
      · exact ih
    · exact ih

/-- A line that begins a field cuts the continuation lines off. -/
theorem foldedTexts_append (hLine : headerLine line = .field name value) :
    foldedTexts (before ++ line :: after) = foldedTexts before := by
  induction before with
  | nil => simp [foldedTexts, hLine]
  | cons first before ih =>
    simp only [List.cons_append, foldedTexts]
    rw [ih]

/-- What stands before a line that begins a field is kept without regard to what follows. -/
theorem keptFields_append (hLine : headerLine line = .field name value) :
    keptFields (before ++ line :: after) = keptFields before ++ keptFields (line :: after) := by
  induction before with
  | nil => rfl
  | cons first before ih =>
    rw [List.cons_append, keptFields, ih, foldedTexts_append hLine]
    conv_rhs => rw [keptFields]
    split
    · split <;> rfl
    · rfl

theorem keptFields_of_accepted (hLine : headerLine line = .field name value)
    (hAccept : HeaderBlock.isAcceptable name value = true) :
    keptFields (line :: after) = (canonicalName name, joinAll value (foldedTexts after)) :: keptFields after := by
  simp [keptFields, hLine, hAccept]

/-- A name that is kept was written, with a value that a client may send. -/
theorem exists_line_of_mem_keptFields {key : String} (h : key ∈ fieldNames (keptFields lines)) :
    ∃ line ∈ lines, ∃ name value, headerLine line = .field name value ∧
      HeaderBlock.isAcceptable name value = true ∧ canonicalName name = key := by
  induction lines with
  | nil => simp [keptFields, fieldNames] at h
  | cons line lines ih =>
    have hTail : key ∈ fieldNames (keptFields lines) → ∃ l ∈ line :: lines, ∃ name value,
        headerLine l = .field name value ∧ HeaderBlock.isAcceptable name value = true ∧
          canonicalName name = key := by
      intro hMem
      obtain ⟨l, hl, hField⟩ := ih hMem
      exact ⟨l, List.mem_cons_of_mem line hl, hField⟩
    unfold keptFields at h
    split at h
    · rename_i name value hLine
      split at h
      · rename_i hAccept
        simp only [fieldNames, List.map_cons, List.mem_cons] at h
        rcases h with rfl | h
        · exact ⟨line, by simp, name, value, hLine, hAccept, rfl⟩
        · exact hTail h
      · exact hTail h
    · exact hTail h

namespace HeaderBlock

variable {maxSize : Nat} {b' : HeaderBlock}

theorem isCanonical_of_pushAll (h : HeaderBlock.pushAll { maxSize } lines = .ok b') :
    IsCanonical b'.headers.fields := by
  rw [headers_of_pushAll_nil h]
  exact Headers.isCanonical_insertAll (by simp [IsCanonical, fieldNames]) (isCanonical_keptFields lines)

/-- In a block that was read from lines, a lookup finds the last field that was kept under the name. -/
theorem get?_of_pushAll (h : HeaderBlock.pushAll { maxSize } lines = .ok b') (name : String) :
    b'.headers.get? name = (keptFields lines).reverse.lookup (canonicalName name) := by
  rw [Headers.get?_eq_lookup (isCanonical_of_pushAll h), headers_of_pushAll_nil h, Headers.lookup_insertAll]
  simp

end HeaderBlock

/-- The value that counts comes from the last line that is kept under the name, and from its continuation lines. -/
theorem lookup_keptFields_of_last (before : List Bytes) (hLine : headerLine line = .field name value)
    (hAccept : HeaderBlock.isAcceptable name value = true)
    (hLast : canonicalName name ∉ fieldNames (keptFields after)) :
    (keptFields (before ++ line :: after)).reverse.lookup (canonicalName name) =
      some (joinAll value (foldedTexts after)) := by
  have hAfter : (keptFields after).reverse.lookup (canonicalName name) = none := by
    refine Headers.lookup_eq_none_of_not_mem fun hMem => hLast ?_
    simpa [fieldNames] using hMem
  -- From the back come the fields behind the line, then the field itself, and then those before it.
  rw [keptFields_append hLine, keptFields_of_accepted hLine hAccept, List.reverse_append, List.reverse_cons,
    List.lookup_append, List.lookup_append, hAfter]
  simp

/-- A line that is kept is found in the end, whatever value it is found with. -/
theorem lookup_keptFields_ne_none (hMem : line ∈ lines) (hLine : headerLine line = .field name value)
    (hAccept : HeaderBlock.isAcceptable name value = true) :
    (keptFields lines).reverse.lookup (canonicalName name) ≠ none := by
  obtain ⟨before, after, rfl⟩ := List.append_of_mem hMem
  rw [keptFields_append hLine, keptFields_of_accepted hLine hAccept, ne_eq, List.lookup_eq_none_iff]
  intro h
  simpa using h (canonicalName name, joinAll value (foldedTexts after)) (by simp)

/-! ## Fields that were written -/

/-- A field as a client writes it. -/
def fieldText (field : String × String) : String :=
  field.1 ++ ": " ++ field.2

/-- A field that is stored as it was written: a canonical name that a client may send, and a value without blanks at
its ends. -/
structure IsSendable (field : String × String) : Prop where
  canonical : canonicalName field.1 = field.1
  token : isToken field.1 = true
  notSetCookie : field.1 ≠ setCookieName
  value : isFieldValue field.2 = true
  trimmed : trimText field.2 = field.2

variable {field : String × String} {fields : List (String × String)}

/-- A line with a token in front of its colon is a field, and its value is what is left between blanks. -/
theorem headerLine_of_isToken (hToken : isToken field.1 = true) :
    headerLine (Utf8.ofText (fieldText field)) = .field field.1 (trimText field.2) := by
  obtain ⟨name, value⟩ := field
  dsimp only at hToken
  have hChars : (fieldText (name, value)).toList = name.toList ++ ':' :: ' ' :: value.toList := by
    simp [fieldText]
  -- The colon behind the name is the first one, because a token holds none; the value may hold more.
  have hColon : ':' ∉ name.toList := fun hMem => by
    have := isTokenChar_of_mem hToken hMem
    exact absurd this (by decide)
  have hStart : HeaderBlock.isContinuation (name.toList ++ ':' :: ' ' :: value.toList) = false := by
    cases hName : name.toList with
    | nil => rfl
    | cons c cs =>
      have hc : isTokenChar c = true := isTokenChar_of_mem hToken (by simp [hName])
      have hSpace : c ≠ ' ' := by
        rintro rfl
        exact absurd hc (by decide)
      have hTab : c ≠ '\t' := by
        rintro rfl
        exact absurd hc (by decide)
      simp [HeaderBlock.isContinuation, hSpace, hTab]
  have hCut : cutFirst ':' (name.toList ++ ':' :: ' ' :: value.toList) = some (name.toList, ' ' :: value.toList) :=
    cutFirst_eq_some_iff.mpr ⟨rfl, hColon⟩
  simp only [headerLine, Utf8.ofText, Utf8.decode?_encode, hChars, hStart, hCut, trim_space]
  simp [trimText]

theorem headerLine_fieldText (h : IsSendable field) :
    headerLine (Utf8.ofText (fieldText field)) = .field field.1 field.2 := by
  rw [headerLine_of_isToken h.token, h.trimmed]

/-- A field that may be sent stays on its line. -/
theorem not_mem_fieldText (h : IsSendable field) : '\n' ∉ (fieldText field).toList := by
  simp only [fieldText, String.toList_append, List.mem_append, not_or]
  refine ⟨⟨?name, by decide⟩, ?value⟩
  case name =>
    intro hMem
    exact absurd (isTokenChar_of_mem h.token hMem) (by decide)
  case value =>
    intro hMem
    have hChars := h.value
    simp only [isFieldValue, List.all_eq_true] at hChars
    exact absurd (hChars _ hMem) (by decide)

/-- Trimming takes characters away and adds none. -/
theorem isFieldValue_trimText {value : String} (h : isFieldValue value = true) :
    isFieldValue (trimText value) = true := by
  simp only [isFieldValue, trimText, String.toList_ofList, List.all_eq_true] at h ⊢
  exact fun c hc => h c (mem_of_mem_trim hc)

/-- No field that was written is continued by the next one. -/
theorem foldedTexts_map_fieldText (hTokens : ∀ field ∈ fields, isToken field.1 = true) :
    foldedTexts (fields.map fun field => Utf8.ofText (fieldText field)) = [] := by
  cases fields with
  | nil => rfl
  | cons field fields => simp [foldedTexts, headerLine_of_isToken (hTokens field (by simp))]

/-- Of fields that were written, all but the cookies are kept, with the blanks at the ends of their values taken
off. -/
theorem keptFields_map_fieldText (hCanonical : IsCanonical fields)
    (hTokens : ∀ field ∈ fields, isToken field.1 = true) (hValues : ∀ field ∈ fields, isFieldValue field.2 = true) :
    keptFields (fields.map fun field => Utf8.ofText (fieldText field)) =
      (fields.filter (·.1 != setCookieName)).map fun field => (field.1, trimText field.2) := by
  induction fields with
  | nil => rfl
  | cons field fields ih =>
    have hToken : isToken field.1 = true := hTokens field (by simp)
    have hName : canonicalName field.1 = field.1 := hCanonical field.1 (by simp [fieldNames])
    have hAccept : HeaderBlock.isAcceptable field.1 (trimText field.2) = (field.1 != setCookieName) := by
      simp [HeaderBlock.isAcceptable, hToken, isFieldValue_trimText (hValues field (by simp)), hName]
    have hRestTokens : ∀ f ∈ fields, isToken f.1 = true := fun f hf => hTokens f (by simp [hf])
    have hRest := ih (fun n hn => hCanonical n (by simp_all [fieldNames])) hRestTokens
      fun f hf => hValues f (by simp [hf])
    rw [List.map_cons, keptFields, headerLine_of_isToken hToken]
    dsimp only
    rw [hAccept, hName, hRest, foldedTexts_map_fieldText hRestTokens]
    cases hCookie : field.1 != setCookieName <;> simp [hCookie, joinAll]

/-- Fields that may be sent are kept as they were written. -/
theorem keptFields_of_isSendable (h : ∀ field ∈ fields, IsSendable field) :
    keptFields (fields.map fun field => Utf8.ofText (fieldText field)) = fields := by
  have hCanonical : IsCanonical fields := by
    intro n hn
    obtain ⟨field, hMem, rfl⟩ := List.mem_map.mp hn
    exact (h field hMem).canonical
  have hKept : fields.filter (·.1 != setCookieName) = fields :=
    List.filter_eq_self.mpr fun field hMem => bne_iff_ne.mpr (h field hMem).notSetCookie
  have hSame : ∀ field ∈ fields, (field.1, trimText field.2) = field := fun field hMem => by
    rw [(h field hMem).trimmed]
  rw [keptFields_map_fieldText hCanonical (fun f hf => (h f hf).token) fun f hf => (h f hf).value, hKept]
  exact (List.map_congr_left hSame).trans (List.map_id fields)

namespace HeaderBlock

variable {b : HeaderBlock}

/-- A line that begins a field is refused for the size of the block only. -/
theorem push_of_field (hLine : headerLine line = .field name value)
    (hFits : b.size + (line.length + 2) ≤ b.maxSize) : ∃ b', b.push line = (.ok (), b') := by
  rw [push_of_fits hFits, hLine]
  dsimp only
  split
  · exact ⟨_, rfl⟩
  · exact ⟨_, rfl⟩

/-- Lines that begin a field are read as long as they fit. -/
theorem pushAll_of_fields (hLines : ∀ line ∈ lines, ∃ name value, headerLine line = .field name value)
    (hFits : b.size + (lines.map fun line => line.length + 2).sum ≤ b.maxSize) :
    ∃ b', b.pushAll lines = .ok b' := by
  induction lines generalizing b with
  | nil => exact ⟨b, rfl⟩
  | cons line lines ih =>
    simp only [List.map_cons, List.sum_cons] at hFits
    obtain ⟨name, value, hLine⟩ := hLines line (by simp)
    obtain ⟨b₁, hPush⟩ := push_of_field (b := b) hLine (by omega)
    obtain ⟨hSize, hMax, -⟩ := push_cases hPush
    obtain ⟨b', hRest⟩ := ih (b := b₁) (fun l hl => hLines l (by simp [hl])) (by omega)
    exact ⟨b', pushAll_cons_eq_ok_iff.mpr ⟨b₁, hPush, hRest⟩⟩

end HeaderBlock
end HttpServer
