import HttpServer.Proofs.StoreHistories

/-!
# Folded fields

A header block is fed its lines one by one: it keeps the store, the name of the field that is open, and the size of
the lines so far.  Here the same is said of the lines as a whole.

* `NoOpenField` — of some lines, that a continuation line behind them would continue nothing;
* `Refusal` — of a line behind other lines, that it is an error, and which one;
* `referenceFields` — what lines bring when none is refused: each field is read together with its continuation lines
  (`fieldGroups`), and of several fields with one name the last gives the value at the place of the first (`settled`).

`HeaderBlock.push_feed_error_iff` says that a block refuses a line as `Refusal` does, and
`HeaderBlock.reads_reference_fields` adds that the lines are otherwise read as `referenceFields` says.
-/

namespace HttpServer

/-! ## One line -/

section Lines

variable {line : Bytes} {text : List Char}

theorem isContinuation_iff :
    HeaderBlock.isContinuation text = true ↔ text.head? = some ' ' ∨ text.head? = some '\t' := by
  cases text <;> simp [HeaderBlock.isContinuation]

theorem headerLine_eq_undecodable_iff : headerLine line = .undecodable ↔ Utf8.decode? line = none := by
  unfold headerLine
  split
  · simp_all
  · split
    · simp_all
    · split <;> simp_all

theorem headerLine_eq_continuation_iff :
    headerLine line = .continuation text ↔
      Utf8.decode? line = some text ∧ (text.head? = some ' ' ∨ text.head? = some '\t') := by
  rw [← isContinuation_iff]
  cases hDecode : Utf8.decode? line with
  | none => simp [headerLine, hDecode]
  | some cs =>
    cases hCont : HeaderBlock.isContinuation cs with
    | true =>
      simp only [headerLine, hDecode, hCont, if_true, HeaderLine.continuation.injEq, Option.some.injEq]
      exact ⟨fun hText => ⟨hText, hText ▸ hCont⟩, And.left⟩
    | false =>
      have hOther : headerLine line ≠ .continuation text := by
        simp only [headerLine, hDecode, hCont, Bool.false_eq_true, if_false]
        split <;> simp
      refine iff_of_false hOther ?_
      rintro ⟨hText, hBlank⟩
      rw [← Option.some.inj hText, hCont] at hBlank
      contradiction

theorem headerLine_eq_malformed_iff :
    headerLine line = .malformed text ↔
      Utf8.decode? line = some text ∧ ¬(text.head? = some ' ' ∨ text.head? = some '\t') ∧ ':' ∉ text := by
  rw [← isContinuation_iff, ← cutFirst_eq_none_iff]
  cases hDecode : Utf8.decode? line with
  | none => simp [headerLine, hDecode]
  | some cs =>
    cases hCont : HeaderBlock.isContinuation cs with
    | true =>
      simp only [headerLine, hDecode, hCont, if_true, Option.some.injEq, reduceCtorEq, false_iff]
      rintro ⟨rfl, hText, -⟩
      exact hText hCont
    | false =>
      cases hCut : cutFirst ':' cs with
      | none =>
        simp only [headerLine, hDecode, hCont, hCut, Bool.false_eq_true, if_false, HeaderLine.malformed.injEq,
          Option.some.injEq]
        refine ⟨?_, And.left⟩
        rintro rfl
        exact ⟨rfl, by simp [hCont], hCut⟩
      | some parts =>
        simp only [headerLine, hDecode, hCont, hCut, Bool.false_eq_true, if_false, Option.some.injEq, reduceCtorEq,
          false_iff]
        rintro ⟨rfl, -, hText⟩
        rw [hCut] at hText
        contradiction

end Lines

/-- A line that begins a field, whether the field is kept or not. -/
def BeginsField (line : Bytes) : Prop :=
  ∃ name value, headerLine line = .field name value

/-! ## Which lines are errors -/

/-- The size of lines, each with two bytes for its end. -/
def blockSize (lines : List Bytes) : Nat :=
  (lines.map fun line => line.length + 2).sum

/-- Behind these lines no field is open: none has begun, or the last that did was dropped, or a line that is not UTF-8
came after it. -/
inductive NoOpenField (lines : List Bytes) : Prop where
  | unbegun (hLines : ∀ line ∈ lines, ¬BeginsField line)
  | dropped (front : List Bytes) (line : Bytes) (back : List Bytes) (name value : String)
      (hLines : lines = front ++ line :: back) (hLine : headerLine line = .field name value)
      (hDropped : HeaderBlock.isAcceptable name value = false) (hBack : ∀ l ∈ back, ¬BeginsField l)
  | undecodable (front : List Bytes) (line : Bytes) (back : List Bytes) (hLines : lines = front ++ line :: back)
      (hLine : Utf8.decode? line = none) (hBack : ∀ l ∈ back, ¬BeginsField l)

/-- Behind the lines `before`, the line is an error: it makes the block too large; or it begins with a space or a tab
and there is no field that it could continue; or it begins with neither and has no colon. -/
inductive Refusal (maxSize : Nat) (before : List Bytes) (line : Bytes) : Error → Prop where
  | full (hFull : maxSize < blockSize (before ++ [line])) : Refusal maxSize before line (.limitExceeded .headerBlock)
  | orphan (text : List Char) (hFits : blockSize (before ++ [line]) ≤ maxSize) (hText : Utf8.decode? line = some text)
      (hBlank : text.head? = some ' ' ∨ text.head? = some '\t') (hOrphan : NoOpenField before) :
      Refusal maxSize before line (.parse (.malformedHeader (String.ofList text)))
  | noColon (text : List Char) (hFits : blockSize (before ++ [line]) ≤ maxSize)
      (hText : Utf8.decode? line = some text) (hStart : ¬(text.head? = some ' ' ∨ text.head? = some '\t'))
      (hColon : ':' ∉ text) : Refusal maxSize before line (.parse (.malformedHeader (String.ofList text)))

/-- No line is an error behind those before it. -/
def AllTaken (maxSize : Nat) (lines : List Bytes) : Prop :=
  ∀ before line after e, lines = before ++ line :: after → ¬Refusal maxSize before line e

section Refusals

variable {lines before : List Bytes} {line : Bytes} {name value : String} {maxSize : Nat} {e : Error}

@[simp]
theorem blockSize_concat : blockSize (lines ++ [line]) = blockSize lines + (line.length + 2) := by
  simp [blockSize]

/-- A line of a list that ends with `line` is that one, or stands in front of it. -/
private theorem concat_eq_append_cons_iff {front back : List Bytes} {l : Bytes} :
    lines ++ [line] = front ++ l :: back ↔
      (front = lines ∧ l = line ∧ back = []) ∨ ∃ back', back = back' ++ [line] ∧ lines = front ++ l :: back' := by
  constructor
  · intro hLines
    rcases List.eq_nil_or_concat back with rfl | ⟨back', last, rfl⟩
    · obtain ⟨hFront, hLast⟩ := List.append_inj' hLines rfl
      exact .inl ⟨hFront.symm, by simpa using hLast.symm, rfl⟩
    · have hConcat : lines ++ [line] = (front ++ l :: back') ++ [last] := by simpa using hLines
      obtain ⟨hFront, hLast⟩ := List.append_inj' hConcat rfl
      exact .inr ⟨back', by simpa using hLast.symm, hFront⟩
  · rintro (⟨rfl, rfl, rfl⟩ | ⟨back', rfl, rfl⟩)
    · rfl
    · simp

/-- A line that begins no field opens none and closes none, unless it is not UTF-8. -/
theorem noOpenField_concat_of_rest (hLine : ¬BeginsField line) (hText : Utf8.decode? line ≠ none) :
    NoOpenField (lines ++ [line]) ↔ NoOpenField lines := by
  constructor
  · rintro (hLines | ⟨front, l, back, n, v, hLines, hField, hDropped, hBack⟩ | ⟨front, l, back, hLines, hNone, hBack⟩)
    · exact .unbegun fun l hl => hLines l (by simp [hl])
    · rcases concat_eq_append_cons_iff.mp hLines with ⟨-, rfl, -⟩ | ⟨back', rfl, rfl⟩
      · exact absurd ⟨n, v, hField⟩ hLine
      exact .dropped front l back' n v rfl hField hDropped fun l hl => hBack l (by simp [hl])
    · rcases concat_eq_append_cons_iff.mp hLines with ⟨-, rfl, -⟩ | ⟨back', rfl, rfl⟩
      · exact absurd hNone hText
      exact .undecodable front l back' rfl hNone fun l hl => hBack l (by simp [hl])
  · have hConcat : ∀ {back : List Bytes}, (∀ l ∈ back, ¬BeginsField l) → ∀ l ∈ back ++ [line], ¬BeginsField l := by
      intro back hBack l hl
      rcases List.mem_append.mp hl with hl | hl
      · exact hBack l hl
      · rwa [List.mem_singleton.mp hl]
    rintro (hLines | ⟨front, l, back, n, v, rfl, hField, hDropped, hBack⟩ | ⟨front, l, back, rfl, hNone, hBack⟩)
    · exact .unbegun (hConcat hLines)
    · exact .dropped front l (back ++ [line]) n v (by simp) hField hDropped (hConcat hBack)
    · exact .undecodable front l (back ++ [line]) (by simp) hNone (hConcat hBack)

/-- A line that begins a field leaves it open unless it is dropped. -/
theorem noOpenField_concat_of_field (hLine : headerLine line = .field name value) :
    NoOpenField (lines ++ [line]) ↔ HeaderBlock.isAcceptable name value = false := by
  have hText : Utf8.decode? line ≠ none := fun hNone => by
    rw [headerLine_eq_undecodable_iff.mpr hNone] at hLine
    contradiction
  -- No other line can be the last one that counts.
  have hLast : ∀ {front back : List Bytes} {l : Bytes}, lines ++ [line] = front ++ l :: back →
      (∀ l ∈ back, ¬BeginsField l) → l = line := by
    intro front back l hLines hBack
    rcases concat_eq_append_cons_iff.mp hLines with ⟨-, hEq, -⟩ | ⟨back', rfl, -⟩
    · exact hEq
    · exact absurd ⟨name, value, hLine⟩ (hBack line (by simp))
  constructor
  · rintro (hLines | ⟨front, l, back, n, v, hLines, hField, hDropped, hBack⟩ | ⟨front, l, back, hLines, hNone, hBack⟩)
    · exact absurd ⟨name, value, hLine⟩ (hLines line (by simp))
    · rw [hLast hLines hBack, hLine] at hField
      cases hField
      exact hDropped
    · exact absurd (hLast hLines hBack ▸ hNone) hText
  · exact fun hDropped => .dropped lines line [] name value rfl hLine hDropped (by simp)

theorem noOpenField_concat_of_undecodable (hText : Utf8.decode? line = none) : NoOpenField (lines ++ [line]) :=
  .undecodable lines line [] rfl hText (by simp)

theorem refusal_iff_of_full (hFull : maxSize < blockSize (before ++ [line])) :
    Refusal maxSize before line e ↔ e = .limitExceeded .headerBlock := by
  constructor
  · rintro (_ | ⟨_, hFits, -⟩ | ⟨_, hFits, -⟩)
    · rfl
    · omega
    · omega
  · rintro rfl
    exact .full hFull

/-- Whether a line that fits is an error is decided by what it is. -/
theorem refusal_iff_of_fits (hFits : blockSize (before ++ [line]) ≤ maxSize) :
    Refusal maxSize before line e ↔
      match headerLine line with
      | .continuation text => NoOpenField before ∧ e = .parse (.malformedHeader (String.ofList text))
      | .malformed text => e = .parse (.malformedHeader (String.ofList text))
      | _ => False := by
  constructor
  · rintro (hFull | ⟨text, -, hText, hBlank, hOrphan⟩ | ⟨text, -, hText, hStart, hColon⟩)
    · omega
    · rw [headerLine_eq_continuation_iff.mpr ⟨hText, hBlank⟩]
      exact ⟨hOrphan, rfl⟩
    · rw [headerLine_eq_malformed_iff.mpr ⟨hText, hStart, hColon⟩]
  · intro hError
    cases hLine : headerLine line with
    | undecodable => simp [hLine] at hError
    | field name value => simp [hLine] at hError
    | continuation text =>
      obtain ⟨hText, hBlank⟩ := headerLine_eq_continuation_iff.mp hLine
      rw [hLine] at hError
      obtain ⟨hOrphan, rfl⟩ := hError
      exact .orphan text hFits hText hBlank hOrphan
    | malformed text =>
      obtain ⟨hText, hStart, hColon⟩ := headerLine_eq_malformed_iff.mp hLine
      rw [hLine] at hError
      exact hError ▸ .noColon text hFits hText hStart hColon

/-- Lines are all taken if those in front of the last are, and the last is. -/
theorem allTaken_concat :
    AllTaken maxSize (lines ++ [line]) ↔ AllTaken maxSize lines ∧ ∀ e, ¬Refusal maxSize lines line e := by
  constructor
  · intro hTaken
    refine ⟨fun before l after e hLines => ?_, fun e => hTaken lines line [] e rfl⟩
    exact hTaken before l (after ++ [line]) e (by simp [hLines])
  · rintro ⟨hTaken, hLast⟩ before l after e hLines
    rcases concat_eq_append_cons_iff.mp hLines with ⟨rfl, rfl, -⟩ | ⟨after', -, hFront⟩
    · exact hLast e
    · exact hTaken before l after' e hFront

end Refusals

/-! ## Blocks that are fed lines -/

namespace HeaderBlock

variable {b b' : HeaderBlock} {lines before : List Bytes} {line : Bytes} {maxSize : Nat} {e : Error}

/-- Every line is counted, whether it is an error or not. -/
theorem size_push (b : HeaderBlock) (line : Bytes) :
    (b.push line).2.size = b.size + (line.length + 2) ∧ (b.push line).2.maxSize = b.maxSize := by
  rcases hPush : b.push line with ⟨_ | _, b'⟩
  · rw [(push_error hPush).1]
    exact ⟨rfl, rfl⟩
  · obtain ⟨hSize, hMax, -⟩ := push_cases hPush
    exact ⟨hSize, hMax⟩

theorem feed_concat (b : HeaderBlock) (lines : List Bytes) (line : Bytes) :
    b.feed (lines ++ [line]) = ((b.feed lines).push line).2 := by
  simp [feed]

theorem size_feed (maxSize : Nat) (lines : List Bytes) :
    (feed { maxSize } lines).size = blockSize lines ∧ (feed { maxSize } lines).maxSize = maxSize := by
  induction lines using List.reverseRecOn with
  | nil => exact ⟨rfl, rfl⟩
  | append_singleton lines line ih =>
    obtain ⟨hSize, hMax⟩ := size_push (feed { maxSize } lines) line
    rw [feed_concat, hSize, hMax, ih.1, blockSize_concat]
    exact ⟨rfl, ih.2⟩

/-- A block that is not full knows whether a field is open.  The induction is on the lines, from the last one. -/
theorem openField_feed_eq_none_iff (hFits : blockSize lines ≤ maxSize) :
    (feed { maxSize } lines).openField = none ↔ NoOpenField lines := by
  induction lines using List.reverseRecOn with
  | nil => exact iff_of_true rfl (.unbegun (by simp))
  | append_singleton lines line ih =>
    rw [blockSize_concat] at hFits
    obtain ⟨hSize, hMax⟩ := size_feed maxSize lines
    have hOpen := ih (by omega)
    rw [feed_concat, push_of_fits (by omega)]
    cases hLine : headerLine line with
    | undecodable =>
      exact iff_of_true rfl (noOpenField_concat_of_undecodable (headerLine_eq_undecodable_iff.mp hLine))
    | field name value =>
      rw [noOpenField_concat_of_field hLine]
      dsimp only
      split <;> simp_all
    | malformed text =>
      obtain ⟨hText, -⟩ := headerLine_eq_malformed_iff.mp hLine
      rw [noOpenField_concat_of_rest (by simp [BeginsField, hLine]) (by simp [hText])]
      exact hOpen
    | continuation text =>
      obtain ⟨hText, -⟩ := headerLine_eq_continuation_iff.mp hLine
      rw [noOpenField_concat_of_rest (by simp [BeginsField, hLine]) (by simp [hText]), ← hOpen]
      dsimp only
      rw [continueField_eq]
      split <;> simp_all

/-- Behind lines that were fed to it, a block refuses a line for the reasons that the lines give. -/
theorem push_feed_error_iff : ((feed { maxSize } before).push line).1 = .error e ↔ Refusal maxSize before line e := by
  obtain ⟨hSize, hMax⟩ := size_feed maxSize before
  rcases Nat.lt_or_ge maxSize (blockSize (before ++ [line])) with hFull | hFits
  · rw [refusal_iff_of_full hFull, push_of_full (by simpa [hSize, hMax] using hFull)]
    simp [eq_comm]
  rw [refusal_iff_of_fits hFits, push_of_fits (by simpa [hSize, hMax] using hFits)]
  cases headerLine line with
  | undecodable => simp
  | malformed text => simp [eq_comm]
  | field name value =>
    dsimp only
    split <;> simp
  | continuation text =>
    have hOpen : (feed { maxSize } before).openField = none ↔ NoOpenField before :=
      openField_feed_eq_none_iff (by rw [blockSize_concat] at hFits; omega)
    dsimp only
    rw [← hOpen, continueField_eq]
    cases (feed { maxSize } before).openField with
    | none => simp [eq_comm]
    | some name => simp

theorem pushAll_append (b : HeaderBlock) (before after : List Bytes) :
    b.pushAll (before ++ after) = (b.pushAll before).bind fun b => b.pushAll after := by
  induction before generalizing b with
  | nil => rfl
  | cons line before ih =>
    simp only [List.cons_append, pushAll]
    rcases b.push line with ⟨_ | _, b₁⟩
    · rfl
    · exact ih b₁

theorem pushAll_concat_eq_ok_iff :
    b.pushAll (lines ++ [line]) = .ok b' ↔ ∃ b₁, b.pushAll lines = .ok b₁ ∧ b₁.push line = (.ok (), b') := by
  rw [pushAll_append]
  cases b.pushAll lines with
  | error e => simp [Except.bind]
  | ok b₁ =>
    simp only [Except.bind, pushAll]
    rcases hPush : b₁.push line with ⟨_ | _, b₂⟩ <;> simp [hPush]

/-- Lines are an error if the block stops at one of them. -/
theorem pushAll_eq_error_iff :
    b.pushAll lines = .error e ↔
      ∃ before line after, lines = before ++ line :: after ∧ b.StopsAt before line e := by
  constructor
  · intro hError
    induction lines generalizing b with
    | nil => simp [pushAll] at hError
    | cons line lines ih =>
      rw [pushAll] at hError
      rcases hPush : b.push line with ⟨e' | _, b₁⟩
      · rw [hPush] at hError
        exact ⟨[], line, lines, rfl, b, rfl, by rw [hPush]; simpa using hError⟩
      · rw [hPush] at hError
        obtain ⟨before, l, after, rfl, b₂, hBefore, hStop⟩ := ih hError
        exact ⟨line :: before, l, after, rfl, b₂, pushAll_cons_eq_ok_iff.mpr ⟨b₁, hPush, hBefore⟩, hStop⟩
  · rintro ⟨before, line, after, rfl, b₁, hBefore, hStop⟩
    rw [pushAll_append, hBefore]
    rcases hPush : b₁.push line with ⟨e' | _, b₂⟩
    · simpa [Except.bind, pushAll, hPush] using hStop
    · simp [hPush] at hStop

/-- A block that reads all lines has been fed them. -/
theorem pushAll_eq_ok_iff :
    pushAll { maxSize } lines = .ok b' ↔ AllTaken maxSize lines ∧ b' = feed { maxSize } lines := by
  induction lines using List.reverseRecOn generalizing b' with
  | nil => simp [pushAll, AllTaken, feed, eq_comm]
  | append_singleton lines line ih =>
    have hLast : (∀ e, ¬Refusal maxSize lines line e) ↔ ((feed { maxSize } lines).push line).1 = .ok () := by
      simp only [← push_feed_error_iff]
      rcases ((feed { maxSize } lines).push line).1 with e | _ <;> simp
    simp only [pushAll_concat_eq_ok_iff, ih, allTaken_concat, hLast, feed_concat, Prod.ext_iff]
    constructor
    · rintro ⟨_, ⟨hTaken, rfl⟩, hOk, rfl⟩
      exact ⟨⟨hTaken, hOk⟩, rfl⟩
    · rintro ⟨⟨hTaken, hOk⟩, rfl⟩
      exact ⟨_, ⟨hTaken, rfl⟩, hOk, rfl⟩

theorem stopsAt_iff :
    StopsAt { maxSize } before line e ↔ AllTaken maxSize before ∧ Refusal maxSize before line e := by
  simp only [StopsAt, pushAll_eq_ok_iff, ← push_feed_error_iff]
  constructor
  · rintro ⟨_, ⟨hTaken, rfl⟩, hStop⟩
    exact ⟨hTaken, hStop⟩
  · rintro ⟨hTaken, hStop⟩
    exact ⟨_, ⟨hTaken, rfl⟩, hStop⟩

end HeaderBlock

/-! ## The fields that lines bring -/

/-- Whether a piece of a value says something and may stand in one. -/
def isFragment (piece : String) : Bool :=
  !piece.isEmpty && isFieldValue piece

/-- A line that begins a field, and the continuation lines behind it. -/
structure FieldGroup where
  name : String
  /-- What stands behind the colon, without blanks at its ends. -/
  value : String
  more : List (List Char)
  deriving DecidableEq, Repr

namespace FieldGroup

/-- Whether the field is one that a client may send. -/
def isKept (group : FieldGroup) : Bool :=
  isToken group.name && isFieldValue group.value && !sameIgnoringCase group.name setCookieName

/-- The pieces of the value, each without blanks at its ends. -/
def pieces (group : FieldGroup) : List String :=
  group.value :: group.more.map fun text => String.ofList (trim text)

/-- The pieces that count, with single spaces between them. -/
def text (group : FieldGroup) : String :=
  " ".intercalate (group.pieces.filter isFragment)

end FieldGroup

/-- The continuation lines at the front. -/
def continuations : List Bytes → List (List Char)
  | [] => []
  | line :: lines =>
    match headerLine line with
    | .continuation text => text :: continuations lines
    | _ => []

/-- Each line that begins a field, with its continuation lines.  A line that is not UTF-8 belongs to none. -/
def fieldGroups : List Bytes → List FieldGroup
  | [] => []
  | line :: lines =>
    match headerLine line with
    | .field name value => { name, value, more := continuations lines } :: fieldGroups lines
    | _ => fieldGroups lines

/-- The value that a name has in the end. -/
def lastValue? (name : String) (fields : List (String × String)) : Option String :=
  (fields.reverse.find? fun field => sameIgnoringCase field.1 name).map (·.2)

/-- Each name once, in the place of its first field and with the value of its last. -/
def settled (fields : List (String × String)) : List (String × String) :=
  (fields.map fun field => canonicalName field.1).eraseDups.filterMap fun name =>
    (lastValue? name fields).map fun value => (name, value)

/-- The fields that lines bring when none of the lines is refused. -/
def referenceFields (lines : List Bytes) : List (String × String) :=
  settled (((fieldGroups lines).filter (·.isKept)).map fun group => (group.name, group.text))

section References

variable {lines : List Bytes} {name value : String} {fields : List (String × String)}

theorem isAcceptable_eq (name value : String) :
    HeaderBlock.isAcceptable name value =
      (isToken name && isFieldValue value && !sameIgnoringCase name setCookieName) := by
  have hCookie : (canonicalName name != setCookieName) = !sameIgnoringCase name setCookieName := by
    have hCanonical : canonicalName setCookieName = setCookieName := by decide
    rw [Bool.eq_iff_iff, bne_iff_ne, Bool.not_eq_true', Bool.eq_false_iff, ne_eq, ne_eq, ← canonicalName_eq_iff,
      hCanonical]
  rw [HeaderBlock.isAcceptable, hCookie]

private theorem intercalate_space_cons (value text : String) (rest : List String) :
    " ".intercalate ((value ++ " " ++ text) :: rest) = " ".intercalate (value :: text :: rest) := by
  cases rest <;> simp [String.append_assoc]

/-- Joining texts to a value puts a space between any two that are not empty. -/
theorem joinAll_eq_intercalate {texts : List String} (hTexts : ∀ text ∈ texts, text.isEmpty = false) :
    joinAll value texts = " ".intercalate ((value :: texts).filter (!·.isEmpty)) := by
  induction texts generalizing value with
  | nil => cases hEmpty : value.isEmpty <;> simp_all [joinAll]
  | cons text texts ih =>
    have hText : text.isEmpty = false := hTexts text (by simp)
    have hStep : joinAll value (text :: texts) = joinAll (Headers.joinFolded value text) texts := rfl
    rw [hStep, ih fun t ht => hTexts t (by simp [ht]), Headers.joinFolded]
    cases hEmpty : value.isEmpty with
    | true => simp [hEmpty]
    | false =>
      have hJoined : (value ++ " " ++ text).isEmpty = false := by simp
      simp only [Bool.false_eq_true, if_false, List.filter_cons, hJoined, hEmpty, hText, Bool.not_false, if_true]
      exact intercalate_space_cons value text _

theorem foldedTexts_eq (lines : List Bytes) : foldedTexts lines = (continuations lines).filterMap foldedText? := by
  induction lines with
  | nil => rfl
  | cons line lines ih =>
    unfold foldedTexts continuations
    cases headerLine line with
    | continuation text => cases hText : foldedText? text <;> simp [hText, ih]
    | _ => rfl

theorem foldedText?_eq (text : List Char) : foldedText? text = Option.guard isFragment (String.ofList (trim text)) := by
  have hGuard : ∀ piece : String,
      (if piece.isEmpty || !isFieldValue piece then none else some piece) = Option.guard isFragment piece := by
    intro piece
    cases hEmpty : piece.isEmpty <;> cases hValue : isFieldValue piece <;>
      simp [Option.guard, isFragment, hEmpty, hValue]
  exact hGuard _

/-- The value of a field that is kept, read from its pieces. -/
theorem joinAll_foldedTexts (name : String) (lines : List Bytes) (hValue : isFieldValue value = true) :
    joinAll value (foldedTexts lines) = FieldGroup.text { name, value, more := continuations lines } := by
  have hTexts : foldedTexts lines =
      ((continuations lines).map fun text => String.ofList (trim text)).filter isFragment := by
    rw [foldedTexts_eq, ← List.filterMap_eq_filter, List.filterMap_map]
    exact List.filterMap_congr fun text _ => foldedText?_eq text
  have hFragments : ∀ text ∈ foldedTexts lines, isFragment text = true := by
    intro text hText
    rw [hTexts] at hText
    exact (List.mem_filter.mp hText).2
  have hNonempty : ∀ text ∈ foldedTexts lines, text.isEmpty = false := fun text hText => by
    have := hFragments text hText
    simp_all [isFragment]
  -- Of pieces that may stand in a value, those that count are those that are not empty.
  have hFirst : isFragment value = !value.isEmpty := by simp [isFragment, hValue]
  rw [joinAll_eq_intercalate hNonempty, FieldGroup.text, FieldGroup.pieces, List.filter_cons, List.filter_cons, hFirst,
    ← hTexts, List.filter_eq_self.mpr fun text hText => by simp [hNonempty text hText]]

/-- The fields that are kept, read group by group. -/
theorem keptFields_eq (lines : List Bytes) :
    keptFields lines =
      ((fieldGroups lines).filter (·.isKept)).map fun group => (canonicalName group.name, group.text) := by
  induction lines with
  | nil => rfl
  | cons line lines ih =>
    unfold keptFields fieldGroups
    cases headerLine line with
    | field name value =>
      dsimp only
      rw [isAcceptable_eq, ih, List.filter_cons]
      cases hKept : FieldGroup.isKept { name, value, more := continuations lines } with
      | false =>
        rw [FieldGroup.isKept] at hKept
        simp [hKept]
      | true =>
        have hValue : isFieldValue value = true := by
          simp only [FieldGroup.isKept, Bool.and_eq_true] at hKept
          exact hKept.1.2
        rw [FieldGroup.isKept] at hKept
        simp only [hKept, if_true, List.map_cons, joinAll_foldedTexts name lines hValue]
    | _ => exact ih

end References

namespace Headers

variable {h : Headers} {fields : List (String × String)}

theorem insertAll_concat (field : String × String) :
    h.insertAll (fields ++ [field]) = (h.insertAll fields).insert field.1 field.2 :=
  insertAll_append

/-- Fields that are stored one by one stand in the order in which their names came first. -/
theorem fieldNames_insertAll (fields : List (String × String)) :
    fieldNames (({} : Headers).insertAll fields).fields = (fieldNames fields).eraseDups := by
  induction fields using List.reverseRecOn with
  | nil => rfl
  | append_singleton fields field ih =>
    have hMem : field.1 ∈ fieldNames (({} : Headers).insertAll fields).fields ↔ field.1 ∈ fieldNames fields := by
      rw [ih, List.mem_eraseDups]
    have hNames : fieldNames (fields ++ [field]) = fieldNames fields ++ [field.1] := by simp [fieldNames]
    rw [insertAll_concat, insert, hNames, List.eraseDups_append]
    by_cases hOld : field.1 ∈ fieldNames fields
    · rw [fieldNames_insertField_of_mem (hMem.mpr hOld), ih]
      simp [List.removeAll, hOld]
    · rw [insertField_of_not_mem fun hNew => hOld (hMem.mp hNew)]
      have hConcat : ∀ stored : List (String × String),
          fieldNames (stored ++ [(field.1, field.2)]) = fieldNames stored ++ [field.1] := by simp [fieldNames]
      rw [hConcat, ih]
      simp [List.removeAll, hOld, List.eraseDups_cons]

/-- A store in which no name stands twice is the list of its names with what a lookup finds. -/
theorem eq_filterMap_lookup (hNodup : (fieldNames fields).Nodup) :
    fields = (fieldNames fields).filterMap fun name => (fields.lookup name).map fun value => (name, value) := by
  have hField : ∀ field ∈ fields,
      ((fields.lookup field.1).map fun value => (field.1, value)) = some field := by
    rintro ⟨name, value⟩ hMem
    rw [lookup_eq_some_of_mem hNodup hMem, Option.map_some]
  rw [fieldNames, List.filterMap_map]
  exact ((List.filterMap_congr hField).trans List.filterMap_some).symm

theorem nodup_insertAll (hNodup : (fieldNames h.fields).Nodup) : (fieldNames (h.insertAll fields).fields).Nodup := by
  induction fields generalizing h with
  | nil => exact hNodup
  | cons field fields ih => exact ih (nodup_insertField hNodup)

/-- Among fields with canonical names a lookup finds the one that is found in either letter case among the others. -/
theorem lookup_map_canonicalName {name : String} (hName : canonicalName name = name) :
    (fields.map fun field => (canonicalName field.1, field.2)).lookup name =
      (fields.find? fun field => sameIgnoringCase field.1 name).map (·.2) := by
  induction fields with
  | nil => rfl
  | cons field fields ih =>
    have hSame : name = canonicalName field.1 ↔ sameIgnoringCase field.1 name = true := by
      rw [← canonicalName_eq_iff, hName, eq_comm]
    simp only [List.map_cons, lookup_cons_eq, List.find?_cons, ih, hSame]
    cases sameIgnoringCase field.1 name <;> rfl

/-- Of fields stored one by one, each name stands where it came first, with the value that came last. -/
theorem insertAll_map_canonicalName (fields : List (String × String)) :
    ({} : Headers).insertAll (fields.map fun field => (canonicalName field.1, field.2)) =
      { fields := settled fields } := by
  let named := fields.map fun field => (canonicalName field.1, field.2)
  have hNames : fieldNames (({} : Headers).insertAll named).fields =
      (fields.map fun field => canonicalName field.1).eraseDups := by
    rw [fieldNames_insertAll]
    simp [named, fieldNames, Function.comp_def]
  have hValue : ∀ name ∈ (fields.map fun field => canonicalName field.1).eraseDups,
      (({} : Headers).insertAll named).fields.lookup name = lastValue? name fields := by
    intro name hMem
    obtain ⟨field, -, rfl⟩ := List.mem_map.mp (List.mem_eraseDups.mp hMem)
    rw [lookup_insertAll, List.lookup_nil, Option.or_none, ← List.map_reverse,
      lookup_map_canonicalName (canonicalName_canonicalName field.1), lastValue?]
  have hNodup : (fieldNames (({} : Headers).insertAll named).fields).Nodup := nodup_insertAll (by simp [fieldNames])
  have hFields : (({} : Headers).insertAll named).fields = settled fields := by
    rw [eq_filterMap_lookup hNodup, hNames, settled]
    exact List.filterMap_congr fun name hMem => by rw [hValue name hMem]
  have hCookies : (({} : Headers).insertAll named).cookies = [] := cookies_insertAll
  change ({} : Headers).insertAll named = _
  generalize ({} : Headers).insertAll named = stored at hFields hCookies ⊢
  obtain ⟨storedFields, cookies⟩ := stored
  rw [Headers.mk.injEq]
  exact ⟨hFields, hCookies⟩

end Headers

namespace HeaderBlock

/-- **A header block reads its lines as fields with continuations.**  Whatever lines were fed to a block, errors or not,
it refuses the next one for the reasons that `Refusal` lists and for no other.  So lines that are pushed until one fails
fail at the first that is refused.  If none is, the store in the end holds the reference fields. -/
theorem reads_reference_fields (maxSize : Nat) (lines : List Bytes) :
    (∀ line e, ((feed { maxSize } lines).push line).1 = .error e ↔ Refusal maxSize lines line e) ∧
      (∀ e, pushAll { maxSize } lines = .error e ↔
        ∃ before line after, lines = before ++ line :: after ∧ AllTaken maxSize before ∧
          Refusal maxSize before line e) ∧
      (AllTaken maxSize lines →
        ∃ b, pushAll { maxSize } lines = .ok b ∧ b.headers = { fields := referenceFields lines }) := by
  refine ⟨fun line e => push_feed_error_iff, fun e => ?stop, fun hTaken => ?read⟩
  case stop => simp only [pushAll_eq_error_iff, stopsAt_iff]
  case read =>
    have hRead : pushAll { maxSize } lines = .ok (feed { maxSize } lines) := pushAll_eq_ok_iff.mpr ⟨hTaken, rfl⟩
    refine ⟨_, hRead, ?_⟩
    rw [headers_of_pushAll_nil hRead, keptFields_eq, referenceFields, ← Headers.insertAll_map_canonicalName,
      List.map_map]
    rfl

/-- A field in three pieces, one that is dropped, and one that replaces the first; behind the one that is dropped no
line can be continued. -/
theorem reads_folded_lines :
    let texts :=
      ["X-Long:", "  first part", "\tsecond part", "accept: a", "x-long: last\t", "  ", " word", "Bad Name: x"]
    let lines := texts.map Utf8.ofText
    (AllTaken 1024 lines ∧ ∃ b, pushAll { maxSize := 1024 } lines = .ok b ∧
      b.headers = { fields := [("X-Long", "last word"), ("Accept", "a")] }) ∧
      Refusal 1024 lines (Utf8.ofText " orphan") (.parse (.malformedHeader " orphan")) := by
  intro texts lines
  have hRead : pushAll { maxSize := 1024 } lines = .ok (feed { maxSize := 1024 } lines) := by decide +kernel
  have hTaken : AllTaken 1024 lines := (pushAll_eq_ok_iff.mp hRead).1
  have hFields : referenceFields lines = [("X-Long", "last word"), ("Accept", "a")] := by decide +kernel
  have hOrphan : ((feed { maxSize := 1024 } lines).push (Utf8.ofText " orphan")).1 =
      .error (.parse (.malformedHeader " orphan")) := by decide +kernel
  obtain ⟨hRefused, -, hAll⟩ := reads_reference_fields 1024 lines
  rw [hFields] at hAll
  exact ⟨⟨hTaken, hAll hTaken⟩, (hRefused _ _).mp hOrphan⟩

end HeaderBlock
end HttpServer
