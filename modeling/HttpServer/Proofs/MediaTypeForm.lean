import HttpServer.Headers.MediaType
import HttpServer.Proofs.Lines
import HttpServer.Proofs.Trimming
import Mathlib.Tactic.MkIffOfInductiveProp

/-!
# Media types as they are written

A media type is written as a type and a subtype, and behind them parameters, each behind a semicolon that may have
blanks around it; a value is a token or stands between quotes (`MediaType.Written`).  What it means are its parts, the
names in lower case and the values without their quotes (`MediaType.Written.meaning`).

The reader cuts at every semicolon before it looks for quotes.  So it finds the meaning of a media type exactly if no
value holds a semicolon; and a value with one never comes out whole, whatever else the text holds
(`MediaType.parse_text_iff`).
-/

namespace HttpServer
namespace MediaType

/-! ## The written form -/

/-- Characters that stand for themselves between quotes. -/
def isQuotable (c : Char) : Bool :=
  isFieldChar c && c != '"' && c != '\\'

/-- The value of a parameter as it is written. -/
inductive WrittenValue where
  | bare (text : String)
  | quoted (text : String)
  deriving DecidableEq, Repr

namespace WrittenValue

/-- The value without its quotes. -/
def content : WrittenValue → String
  | bare text | quoted text => text

/-- The value with its quotes. -/
def chars : WrittenValue → List Char
  | bare text => text.toList
  | quoted text => '"' :: (text.toList ++ ['"'])

/-- Without quotes a value is a token, and between them any characters but quotes and backslashes. -/
def IsValid : WrittenValue → Prop
  | bare text => isToken text = true
  | quoted text => text.toList.all isQuotable = true

instance : DecidablePred IsValid
  | bare text => inferInstanceAs (Decidable (isToken text = true))
  | quoted text => inferInstanceAs (Decidable (text.toList.all isQuotable = true))

end WrittenValue

/-- A parameter as it is written, with the blanks around it. -/
structure WrittenParam where
  front : List Char := []
  name : String
  value : WrittenValue
  back : List Char := []
  deriving DecidableEq, Repr

namespace WrittenParam

/-- The parameter without the blanks around it. -/
def core (p : WrittenParam) : List Char :=
  p.name.toList ++ '=' :: p.value.chars

/-- What stands behind the semicolon. -/
def chars (p : WrittenParam) : List Char :=
  p.front ++ p.core ++ p.back

/-- Names of parameters have no letter case. -/
def key (p : WrittenParam) : String :=
  lower p.name.toList

/-- The name is a token, and only blanks stand around the parameter. -/
@[mk_iff]
structure IsValid (p : WrittenParam) : Prop where
  name : isToken p.name = true
  value : p.value.IsValid
  front : p.front.all isBlank = true
  back : p.back.all isBlank = true

instance (p : WrittenParam) : Decidable p.IsValid :=
  decidable_of_iff _ (isValid_iff p).symm

end WrittenParam

/-- A media type as it is written. -/
structure Written where
  type : String
  subtype : String
  /-- Blanks behind the subtype. -/
  back : List Char := []
  params : List WrittenParam := []
  deriving DecidableEq, Repr

namespace Written

/-- Type and subtype. -/
def core (m : Written) : List Char :=
  m.type.toList ++ '/' :: m.subtype.toList

/-- The whole text. -/
def text (m : Written) : String :=
  String.ofList (m.core ++ m.back ++ m.params.flatMap fun p => ';' :: p.chars)

/-- What the text stands for. -/
def meaning (m : Written) : MediaType where
  essence := lower m.core
  params := m.params.map fun p => (p.key, p.value.content)

/-- Type and subtype are tokens, and so are the names of the parameters, each there once in either letter case. -/
@[mk_iff]
structure IsValid (m : Written) : Prop where
  type : isToken m.type = true
  subtype : isToken m.subtype = true
  back : m.back.all isBlank = true
  params : ∀ p ∈ m.params, p.IsValid
  distinct : (m.params.map (·.key)).Nodup

instance (m : Written) : Decidable m.IsValid :=
  decidable_of_iff _ (isValid_iff m).symm

end Written

/-! ## One value -/

namespace WrittenValue

variable {v : WrittenValue}

/-- Quotes are taken off, and a value without quotes has none to take off. -/
theorem unquote_chars (h : v.IsValid) : unquote v.chars = v.content.toList := by
  cases v with
  | quoted text => simp [chars, content, unquote]
  | bare text =>
    have hQuote : '"' ∉ text.toList := fun hMem => absurd (isTokenChar_of_mem h hMem) (by decide)
    simp only [chars, content]
    unfold unquote
    split
    · rename_i hChars
      simp [hChars] at hQuote
    · rfl

/-- Neither a token nor a quotation begins or ends with a blank. -/
theorem trim_chars (h : v.IsValid) : trim v.chars = v.chars := by
  cases v with
  | quoted text =>
    have hQuote : isBlank '"' = false := by decide
    have hEnd : (text.toList ++ ['"']).rdropWhile isBlank = text.toList ++ ['"'] :=
      List.rdropWhile_concat_neg _ _ _ (by simp [hQuote])
    have hTrim := @trim_append_cons '"' [] (text.toList ++ ['"']) hQuote
    rwa [hEnd, List.dropWhile_nil] at hTrim
  | bare text => exact trim_of_isToken h

theorem semicolon_mem_chars_iff : ';' ∈ v.chars ↔ ';' ∈ v.content.toList := by
  cases v with
  | quoted text => simp [chars, content]
  | bare text => rfl

end WrittenValue

/-! ## One parameter -/

namespace WrittenParam

variable {p : WrittenParam}

theorem IsValid.equals_not_mem (h : p.IsValid) : '=' ∉ p.name.toList :=
  fun hMem => absurd (isTokenChar_of_mem h.name hMem) (by decide)

/-- What is left of a parameter between semicolons. -/
theorem IsValid.trim_chars (h : p.IsValid) : trim p.chars = p.core := by
  have hEquals : isBlank '=' = false := by decide
  rw [chars, trim_between h.front h.back]
  exact trim_append_cons_eq_self hEquals (trim_of_isToken h.name) (WrittenValue.trim_chars h.value)

theorem IsValid.semicolon_not_mem_chars (h : p.IsValid) (hValue : ';' ∉ p.value.content.toList) : ';' ∉ p.chars := by
  have hBlank : isBlank ';' = false := by decide
  have hFront : ';' ∉ p.front := fun hMem => by simp [List.all_eq_true.mp h.front _ hMem] at hBlank
  have hBack : ';' ∉ p.back := fun hMem => by simp [List.all_eq_true.mp h.back _ hMem] at hBlank
  have hName : ';' ∉ p.name.toList := fun hMem => absurd (isTokenChar_of_mem h.name hMem) (by decide)
  rw [← WrittenValue.semicolon_mem_chars_iff] at hValue
  simp [chars, core, hFront, hBack, hName, hValue]

/-- A parameter is its name and its value, whatever stands between its quotes. -/
theorem IsValid.parseParam?_core (h : p.IsValid) : parseParam? p.core = some (p.key, p.value.content) := by
  have hCut : cutFirst '=' p.core = some (p.name.toList, p.value.chars) :=
    cutFirst_eq_some_iff.mpr ⟨rfl, h.equals_not_mem⟩
  simp [parseParam?, hCut, trim_of_isToken h.name, h.name, WrittenValue.trim_chars h.value,
    WrittenValue.unquote_chars h.value, key]

end WrittenParam

/-! ## The whole text -/

namespace Written

variable {m : Written}

theorem IsValid.trim_core (h : m.IsValid) : trim (m.core ++ m.back) = m.core := by
  have hSlash : isBlank '/' = false := by decide
  have hTrim : trim ([] ++ m.core ++ m.back) = trim m.core := trim_between rfl h.back
  rw [List.nil_append] at hTrim
  rw [hTrim]
  exact trim_append_cons_eq_self hSlash (trim_of_isToken h.type) (trim_of_isToken h.subtype)

theorem IsValid.isEssence_core (h : m.IsValid) : isEssence m.core = true := by
  have hSlash : '/' ∉ m.type.toList := fun hMem => absurd (isTokenChar_of_mem h.type hMem) (by decide)
  have hCut : cutFirst '/' m.core = some (m.type.toList, m.subtype.toList) := cutFirst_eq_some_iff.mpr ⟨rfl, hSlash⟩
  simp [isEssence, hCut, h.type, h.subtype]

theorem IsValid.semicolon_not_mem_core (h : m.IsValid) : ';' ∉ m.core ++ m.back := by
  have hBlank : isBlank ';' = false := by decide
  have hType : ';' ∉ m.type.toList := fun hMem => absurd (isTokenChar_of_mem h.type hMem) (by decide)
  have hSubtype : ';' ∉ m.subtype.toList := fun hMem => absurd (isTokenChar_of_mem h.subtype hMem) (by decide)
  have hBack : ';' ∉ m.back := fun hMem => by simp [List.all_eq_true.mp h.back _ hMem] at hBlank
  simp [core, hType, hSubtype, hBack]

/-- Without semicolons in its values a text is cut at those that separate its parameters. -/
theorem IsValid.splitOn_text (h : m.IsValid) (hValues : ∀ p ∈ m.params, ';' ∉ p.value.content.toList) :
    splitOn ';' m.text.toList = (m.core ++ m.back) :: m.params.map (·.chars) := by
  have hParts : ∀ part ∈ m.params.map (·.chars), ';' ∉ part := by
    simp only [List.mem_map]
    rintro _ ⟨p, hMem, rfl⟩
    exact (h.params p hMem).semicolon_not_mem_chars (hValues p hMem)
  have hChars : m.text.toList = (m.core ++ m.back) ++ (m.params.map (·.chars)).flatMap (';' :: ·) := by
    rw [text, String.toList_ofList, List.flatMap_map]
  rw [hChars, splitOn_append_flatMap h.semicolon_not_mem_core hParts]

/-- Each parameter is then read as what it means; none is blank. -/
theorem readParams_of_isValid {params : List WrittenParam} (h : ∀ p ∈ params, p.IsValid) :
    (((params.map (·.chars)).map trim).filter (!·.isEmpty)).mapM parseParam? =
      some (params.map fun p => (p.key, p.value.content)) := by
  induction params with
  | nil => rfl
  | cons p params ih =>
    rw [List.forall_mem_cons] at h
    have hSome : p.core.isEmpty = false := by simp [WrittenParam.core]
    simp only [List.map_cons, h.1.trim_chars, List.filter_cons, hSome, Bool.not_false, if_true, List.mapM_cons,
      h.1.parseParam?_core, ih h.2, Option.bind_eq_bind, Option.bind_some, Option.pure_def]

/-- A text without semicolons in its values is read as what it means. -/
theorem IsValid.parse_text (h : m.IsValid) (hValues : ∀ p ∈ m.params, ';' ∉ p.value.content.toList) :
    parse m.text = m.meaning := by
  have hParts := h.splitOn_text hValues
  simp only [splitOn, List.cons.injEq] at hParts
  have hKeys : ((m.params.map fun p => (p.key, p.value.content)).map (·.1)).Nodup := by
    simpa [Function.comp_def] using h.distinct
  have hStrict : parseStrict? m.text.toList = some m.meaning := by
    simp only [parseStrict?, hParts.1, hParts.2, h.trim_core, h.isEssence_core, if_true,
      readParams_of_isValid h.params, Option.bind_eq_bind, Option.bind_some]
    rw [foldl_putPair (by simpa using hKeys)]
    rfl
  rw [parse, hStrict, Option.getD_some]

end Written

/-! ## Any text -/

theorem mem_of_mem_unquote {c : Char} {cs : List Char} (h : c ∈ unquote cs) : c ∈ cs := by
  unfold unquote at h
  split at h
  · split at h
    · exact .tail _ (List.dropLast_subset _ h)
    · exact h
  · exact h

/-- The value of a parameter is a piece of its text. -/
theorem mem_of_parseParam? {part : List Char} {pair : String × String} (h : parseParam? part = some pair) {c : Char}
    (hMem : c ∈ pair.2.toList) : c ∈ part := by
  obtain ⟨⟨key, value⟩, hCut, hPair⟩ := Option.bind_eq_some_iff.mp h
  dsimp only at hPair
  split at hPair
  · obtain rfl := Option.some.inj hPair
    rw [String.toList_ofList] at hMem
    rw [cutFirst_eq_some hCut]
    exact List.mem_append_right _ (.tail _ (mem_of_mem_trim (mem_of_mem_unquote hMem)))
  · contradiction

theorem exists_mem_of_mapM_eq_some {α β : Type} {f : α → Option β} {xs : List α} {ys : List β}
    (h : xs.mapM f = some ys) : ∀ y ∈ ys, ∃ x ∈ xs, f x = some y := by
  induction xs generalizing ys with
  | nil =>
    obtain rfl : [] = ys := by simpa using h
    simp
  | cons x xs ih =>
    simp only [List.mapM_cons, Option.bind_eq_bind, Option.bind_eq_some_iff, Option.pure_def, Option.some.injEq] at h
    obtain ⟨first, hFirst, rest, hRest, rfl⟩ := h
    intro y hMem
    rcases List.mem_cons.mp hMem with rfl | hMore
    · exact ⟨x, by simp, hFirst⟩
    · obtain ⟨other, hOther, hValue⟩ := ih hRest y hMore
      exact ⟨other, .tail _ hOther, hValue⟩

/-- Whatever is read, no value holds a semicolon. -/
theorem semicolon_not_mem_of_mem_params {raw : String} {pair : String × String} (h : pair ∈ (parse raw).params) :
    ';' ∉ pair.2.toList := by
  cases hStrict : parseStrict? raw.toList with
  | none => simp [parse, hStrict] at h
  | some m =>
    rw [parse, hStrict, Option.getD_some] at h
    unfold parseStrict? at hStrict
    dsimp only at hStrict
    split at hStrict
    · obtain ⟨pairs, hPairs, rfl⟩ : ∃ pairs, _ ∧ _ := by
        simpa [Option.bind_eq_some_iff] using hStrict
      rcases mem_of_mem_foldl_putPair h with hNone | hPair
      · contradiction
      obtain ⟨part, hPart, hRead⟩ := exists_mem_of_mapM_eq_some hPairs pair hPair
      obtain ⟨piece, hPiece, rfl⟩ := List.mem_map.mp (List.mem_of_mem_filter hPart)
      have hWhole : ';' ∉ piece := not_mem_of_mem_splitOn (.tail _ hPiece)
      exact fun hMem => hWhole (mem_of_mem_trim (mem_of_parseParam? hRead hMem))
    · contradiction

/-- A media type that was written is read as what it means exactly if none of its values holds a semicolon; and a value
with one is never read under its name. -/
theorem parse_text_iff {m : Written} (h : m.IsValid) :
    (parse m.text = m.meaning ↔ ∀ p ∈ m.params, ';' ∉ p.value.content.toList) ∧
      ∀ p ∈ m.params, ';' ∈ p.value.content.toList → (parse m.text).param? p.name ≠ some p.value.content := by
  constructor
  · constructor
    · intro hRead p hMem
      have hPair : (p.key, p.value.content) ∈ (parse m.text).params := by
        rw [hRead]
        exact List.mem_map_of_mem hMem
      exact semicolon_not_mem_of_mem_params hPair
    · exact h.parse_text
  · intro p hMem hSemicolon hFound
    obtain ⟨before, behind, hParams, -⟩ := List.lookup_eq_some_iff.mp hFound
    have hPair : (lower p.name.toList, p.value.content) ∈ (parse m.text).params := by
      rw [hParams]
      simp
    exact semicolon_not_mem_of_mem_params hPair hSemicolon

/-- A media type with blanks around its semicolons, and with an equals sign, commas and blanks between quotes. -/
def crowded : Written where
  type := "Multipart"
  subtype := "Form-Data"
  back := [' ']
  params := [{ front := ['\t', ' '], name := "Boundary", value := .quoted "-- a=b, c ", back := [' '] },
    { name := "charset", value := .bare "UTF-8" }, { front := [' '], name := "x", value := .quoted "" }]

theorem parse_text_crowded :
    crowded.text = "Multipart/Form-Data ;\t Boundary=\"-- a=b, c \" ;charset=UTF-8; x=\"\"" ∧
      parse "Multipart/Form-Data ;\t Boundary=\"-- a=b, c \" ;charset=UTF-8; x=\"\"" =
        ⟨"multipart/form-data", [("boundary", "-- a=b, c "), ("charset", "UTF-8"), ("x", "")]⟩ := by
  have hValid : crowded.IsValid := by decide
  have hText : crowded.text = "Multipart/Form-Data ;\t Boundary=\"-- a=b, c \" ;charset=UTF-8; x=\"\"" := by decide
  have hMeaning : crowded.meaning =
      ⟨"multipart/form-data", [("boundary", "-- a=b, c "), ("charset", "UTF-8"), ("x", "")]⟩ := by decide
  have hRead := (parse_text_iff hValid).1.mpr (by decide)
  exact ⟨hText, by rw [← hText, hRead, hMeaning]⟩

/-- A boundary between quotes that holds a semicolon. -/
def divided : Written where
  type := "multipart"
  subtype := "form-data"
  params := [{ front := [' '], name := "boundary", value := .quoted "a;b" }]

/-- What stands behind such a semicolon is no parameter, and so nothing is read at all; or it looks like one, and then
the value ends there and keeps its first quote. -/
theorem parse_divided :
    divided.IsValid ∧ divided.meaning = ⟨"multipart/form-data", [("boundary", "a;b")]⟩ ∧
      parse divided.text ≠ divided.meaning ∧ parse divided.text = ⟨"multipart/form-data; boundary=\"a;b\"", []⟩ ∧
      parse "text/plain; a=\"x;b=y\"" = ⟨"text/plain", [("a", "\"x"), ("b", "y\"")]⟩ := by
  decide +kernel

end MediaType
end HttpServer
