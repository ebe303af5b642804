import HttpServer.Proofs.Lines
import HttpServer.Proofs.Utf8Pieces
import HttpServer.Request.Headline
import Mathlib.Data.List.Forall2

/-!
# The request lines that are understood

A request line is taken apart at its first and its last space, and then its three words are looked into one after the
other.  Each of these steps is turned here into a statement on the bytes (`splitHeadline_eq_ok_iff`,
`Method.parse?_eq_some_iff`, `parseVersion?_eq_some_iff`, `Headline.checkVersion_eq_ok_iff`,
`Headline.parseTarget_eq_ok_iff`), and `Headline.parse_eq_ok_iff` puts the steps together.

The length tests of the first step ask nothing of a method or of a version that the later steps do not ask too; all
that they add is that the target is not empty.
-/

namespace HttpServer

variable {line target written : Bytes} {method : Method} {version : Version}

/-! ## Three words -/

/-- The words of a request line.  A target may hold spaces, a method and a version may not. -/
theorem splitHeadline_eq_ok_iff {name : Bytes} :
    splitHeadline line = .ok (name, target, written) ↔
      line = name ++ 0x20 :: (target ++ 0x20 :: written) ∧ 0x20 ∉ name ∧ 0x20 ∉ written ∧
        3 ≤ name.length ∧ target ≠ [] ∧ 5 ≤ written.length := by
  unfold splitHeadline
  constructor
  · intro h
    split at h
    · simp at h
    rename_i hFirst
    obtain ⟨rfl, hName⟩ := cutFirst_eq_some_iff.mp hFirst
    split at h
    · simp at h
    rename_i hLast
    obtain ⟨rfl, hWritten⟩ := cutLast_eq_some_iff.mp hLast
    split at h
    · simp at h
    rename_i hLengths
    simp only [Except.ok.injEq, Prod.mk.injEq] at h
    obtain ⟨rfl, rfl, rfl⟩ := h
    simp only [Bool.or_eq_true, decide_eq_true_eq, List.isEmpty_iff, not_or, not_lt] at hLengths
    exact ⟨rfl, hName, hWritten, hLengths.1.1, hLengths.1.2, hLengths.2⟩
  · rintro ⟨rfl, hName, hWritten, hLong, hTarget, hVersion⟩
    -- The first space ends the method and the last one begins the version; those between are in the target.
    have hFirst := cutFirst_eq_some_iff.mpr ⟨Eq.refl (name ++ 0x20 :: (target ++ 0x20 :: written)), hName⟩
    have hLast := cutLast_eq_some_iff.mpr ⟨Eq.refl (target ++ 0x20 :: written), hWritten⟩
    simp only [hFirst, hLast]
    rw [if_neg]
    simp only [Bool.or_eq_true, decide_eq_true_eq, List.isEmpty_iff, not_or, not_lt]
    exact ⟨⟨hLong, hTarget⟩, hVersion⟩

/-! ## The method -/

theorem Method.parse?_name (method : Method) : Method.parse? (Utf8.ofText method.name) = some method := by
  cases method <;> rfl

/-- A method is written in one way only. -/
theorem Method.parse?_eq_some_iff {name : Bytes} :
    Method.parse? name = some method ↔ name = Utf8.ofText method.name := by
  constructor
  · intro h
    have hName := List.find?_some (p := fun m : Method => Utf8.ofText m.name == name) h
    exact (eq_of_beq hName).symm
  · rintro rfl
    exact method.parse?_name

/-- The name of a method is no shorter than a request line asks for, and nothing in it ends it early. -/
theorem Method.name_spec (method : Method) :
    3 ≤ (Utf8.ofText method.name).length ∧ 0x20 ∉ Utf8.ofText method.name ∧ '\n' ∉ method.name.toList := by
  cases method <;> decide

/-! ## The version -/

/-- A byte is the capital letter itself, or this letter in lower case; a byte that is no letter has only one form. -/
def IsLetterCase (capital b : UInt8) : Prop :=
  b = capital ∨ (0x41 ≤ capital ∧ capital ≤ 0x5A) ∧ b = capital + 0x20

/-- Eight bytes that name a version: `HTTP/` in any letter case, a digit, a point, a digit. -/
def IsVersionWord (word : Bytes) (version : Version) : Prop :=
  ∃ protocol, List.Forall₂ IsLetterCase (Utf8.ofText "HTTP/") protocol ∧
    word = protocol ++ [UInt8.ofNat (0x30 + version.major), 0x2E, UInt8.ofNat (0x30 + version.minor)] ∧
      version.major ≤ 9 ∧ version.minor ≤ 9

theorem digitValue?_eq_some_iff {b : UInt8} {n : Nat} :
    digitValue? b = some n ↔ b = UInt8.ofNat (0x30 + n) ∧ n ≤ 9 := by
  unfold digitValue?
  simp only [UInt8.le_iff_toNat_le, ← UInt8.toNat_inj, UInt8.toNat_ofNat', UInt8.reduceToNat]
  have hByte := b.toNat_lt
  constructor
  · intro h
    split at h
    · simp only [Option.some.injEq] at h
      omega
    · simp at h
  · rintro ⟨hValue, hDigit⟩
    rw [if_pos (by omega), Option.some.injEq]
    omega

theorem lowerByte_eq_iff {capital b : UInt8} (h : capital < 0x61) :
    lowerByte b = lowerByte capital ↔ IsLetterCase capital b := by
  unfold lowerByte IsLetterCase
  simp only [UInt8.le_iff_toNat_le, UInt8.lt_iff_toNat_lt, ← UInt8.toNat_inj, apply_ite UInt8.toNat, UInt8.toNat_add,
    UInt8.reduceToNat] at h ⊢
  have hByte := b.toNat_lt
  have hCapital := capital.toNat_lt
  split <;> split <;> omega

theorem map_lowerByte_eq_iff {capitals bs : Bytes} (h : ∀ capital ∈ capitals, capital < 0x61) :
    bs.map lowerByte = capitals.map lowerByte ↔ List.Forall₂ IsLetterCase capitals bs := by
  induction capitals generalizing bs with
  | nil => simp
  | cons capital capitals ih =>
    cases bs with
    | nil => simp
    | cons b bs =>
      rw [List.map_cons, List.map_cons, List.cons.injEq, List.forall₂_cons, lowerByte_eq_iff (h capital (by simp)),
        ih fun other hOther => h other (by simp [hOther])]

theorem parseVersion?_eight {h t₁ t₂ p slash major point minor : UInt8} :
    parseVersion? [h, t₁, t₂, p, slash, major, point, minor] = some version ↔
      List.Forall₂ IsLetterCase (Utf8.ofText "HTTP/") [h, t₁, t₂, p, slash] ∧ point = 0x2E ∧
        digitValue? major = some version.major ∧ digitValue? minor = some version.minor := by
  have hCapitals : ∀ capital ∈ Utf8.ofText "HTTP/", capital < 0x61 := by
    have hBytes : Utf8.ofText "HTTP/" = [0x48, 0x54, 0x54, 0x50, 0x2F] := by decide
    simp [hBytes]
  have hLower : Utf8.ofText "http/" = (Utf8.ofText "HTTP/").map lowerByte := by decide
  rw [← map_lowerByte_eq_iff hCapitals, ← hLower]
  unfold parseVersion?
  by_cases hWord : [h, t₁, t₂, p, slash].map lowerByte = Utf8.ofText "http/" ∧ point = 0x2E
  · obtain ⟨hProtocol, rfl⟩ := hWord
    obtain ⟨majorValue, minorValue⟩ := version
    simp [hProtocol, Option.bind_eq_some_iff]
  · simp only [Bool.and_eq_true, beq_iff_eq, hWord, if_false]
    grind

/-- A version is understood if it has its eight bytes, and it is the one that the two digits name. -/
theorem parseVersion?_eq_some_iff : parseVersion? written = some version ↔ IsVersionWord written version := by
  constructor
  · intro h
    obtain ⟨h₁, t₁, t₂, p, slash, major, point, minor, rfl⟩ :
        ∃ h t₁ t₂ p slash major point minor, written = [h, t₁, t₂, p, slash, major, point, minor] := by
      unfold parseVersion? at h
      split at h
      · exact ⟨_, _, _, _, _, _, _, _, rfl⟩
      · simp at h
    obtain ⟨hProtocol, rfl, hMajor, hMinor⟩ := parseVersion?_eight.mp h
    obtain ⟨rfl, hMajorDigit⟩ := digitValue?_eq_some_iff.mp hMajor
    obtain ⟨rfl, hMinorDigit⟩ := digitValue?_eq_some_iff.mp hMinor
    exact ⟨_, hProtocol, rfl, hMajorDigit, hMinorDigit⟩
  · rintro ⟨protocol, hProtocol, rfl, hMajor, hMinor⟩
    obtain ⟨h, t₁, t₂, p, slash, rfl⟩ : ∃ h t₁ t₂ p slash, protocol = [h, t₁, t₂, p, slash] := by
      have hLength : protocol.length = 5 := hProtocol.length_eq.symm
      match protocol, hLength with
      | [h, t₁, t₂, p, slash], _ => exact ⟨h, t₁, t₂, p, slash, rfl⟩
    exact parseVersion?_eight.mpr ⟨hProtocol, rfl, digitValue?_eq_some_iff.mpr ⟨rfl, hMajor⟩,
      digitValue?_eq_some_iff.mpr ⟨rfl, hMinor⟩⟩

theorem not_mem_of_isLetterCase {capitals bs : Bytes} (h : List.Forall₂ IsLetterCase capitals bs)
    (hBlank : 0x20 ∉ capitals) : 0x20 ∉ bs := by
  induction h with
  | nil => simp
  | cons hLetter _ ih =>
    simp only [List.mem_cons, not_or] at hBlank ⊢
    refine ⟨?_, ih hBlank.2⟩
    rintro rfl
    rcases hLetter with hSame | ⟨⟨hLow, hHigh⟩, hLower⟩
    · exact hBlank.1 hSame
    · grind

/-- A version is long enough for a request line, and nothing in it ends the line early. -/
theorem IsVersionWord.spec {word : Bytes} (h : IsVersionWord word version) : word.length = 8 ∧ 0x20 ∉ word := by
  obtain ⟨protocol, hProtocol, rfl, hMajor, hMinor⟩ := h
  have hLength : protocol.length = 5 := hProtocol.length_eq.symm
  have hBlank : 0x20 ∉ protocol := not_mem_of_isLetterCase hProtocol (by decide)
  have hDigit {n : Nat} (hn : n ≤ 9) : (0x20 : UInt8) ≠ UInt8.ofNat (0x30 + n) := by
    simp only [ne_eq, ← UInt8.toNat_inj, UInt8.toNat_ofNat', UInt8.reduceToNat]
    omega
  refine ⟨by simp [hLength], ?_⟩
  simp only [List.mem_append, List.mem_cons, List.not_mem_nil, or_false, not_or]
  exact ⟨hBlank, hDigit hMajor, by decide, hDigit hMinor⟩

/-! ## Method, version and target together -/

namespace Headline

theorem checkVersion_eq_ok_iff :
    checkVersion method version written = .ok () ↔
      method = .pri ∧ version = .http20 ∨ method ≠ .pri ∧ version.major = 1 := by
  unfold checkVersion
  split
  · split <;> simp_all
  · split
    · simp_all
    · split <;> simp_all

/-- A target is understood if it is a text that has parts. -/
theorem parseTarget_eq_ok_iff {content : String} {url : Url} :
    parseTarget target = .ok (content, url) ↔ target = Utf8.ofText content ∧ Url.parse content = .ok url := by
  unfold parseTarget
  constructor
  · intro h
    split at h
    · simp at h
    rename_i hText
    split at h
    · rename_i hUrl
      simp only [Except.ok.injEq, Prod.mk.injEq] at h
      obtain ⟨rfl, rfl⟩ := h
      exact ⟨(Utf8.ofText_of_toText? hText).symm, hUrl⟩
    · simp at h
  · rintro ⟨rfl, hUrl⟩
    simp only [Utf8.toText?_ofText, hUrl]

variable {headline : Headline}

/-- A request line is understood if each of its steps succeeds. -/
theorem parse_eq_ok_iff :
    parse line = .ok headline ↔
      ∃ name target written, splitHeadline line = .ok (name, target, written) ∧
        Method.parse? name = some headline.method ∧ parseVersion? written = some headline.version ∧
          checkVersion headline.method headline.version written = .ok () ∧
            parseTarget target = .ok (headline.target, headline.url) := by
  simp only [parse, bind, Except.bind]
  constructor
  · intro h
    cases hSplit : splitHeadline line with
    | error e => simp [hSplit, Except.mapError] at h
    | ok words =>
      obtain ⟨name, target, written⟩ := words
      simp only [hSplit, Except.mapError] at h
      split at h
      swap
      · cases h
      rename_i hMethod
      split at h
      swap
      · cases h
      rename_i hVersion
      split at h
      · simp at h
      rename_i hChecked
      split at h
      · simp at h
      rename_i hTarget
      obtain rfl := Except.ok.inj h
      exact ⟨name, target, written, rfl, hMethod, hVersion, hChecked, hTarget⟩
  · rintro ⟨name, target, written, hSplit, hMethod, hVersion, hChecked, hTarget⟩
    simp [hSplit, hMethod, hVersion, hChecked, hTarget, Except.mapError]
    rfl

/-- **The grammar of request lines.**  A request line is understood exactly if it is the name of a method, a space, a
target, a space, and a version in its eight bytes, where the target is not empty and has parts, and either the method is
`PRI` and the version 2.0 or it is another method and the major version is 1.  Nothing of the three is lost or moved:
they are what the result says, the target byte for byte. -/
theorem parse_eq_ok_iff_grammar :
    parse line = .ok headline ↔
      ∃ word, line = Utf8.ofText headline.method.name ++ 0x20 :: (Utf8.ofText headline.target ++ 0x20 :: word) ∧
        headline.target ≠ "" ∧ Url.parse headline.target = .ok headline.url ∧ IsVersionWord word headline.version ∧
          (headline.method = .pri ∧ headline.version = .http20 ∨
            headline.method ≠ .pri ∧ headline.version.major = 1) := by
  rw [parse_eq_ok_iff]
  simp only [splitHeadline_eq_ok_iff, Method.parse?_eq_some_iff, parseVersion?_eq_some_iff, checkVersion_eq_ok_iff,
    parseTarget_eq_ok_iff]
  constructor
  · rintro ⟨_, _, word, ⟨hLine, -, -, -, hTarget, -⟩, rfl, hVersion, hSpoken, rfl, hUrl⟩
    refine ⟨word, hLine, ?_, hUrl, hVersion, hSpoken⟩
    intro hEmpty
    exact hTarget (by rw [hEmpty]; rfl)
  · rintro ⟨word, hLine, hTarget, hUrl, hVersion, hSpoken⟩
    obtain ⟨hLong, hName, -⟩ := headline.method.name_spec
    obtain ⟨hEight, hWord⟩ := hVersion.spec
    exact ⟨_, _, word, ⟨hLine, hName, hWord, hLong, Utf8.ofText_ne_nil hTarget, by omega⟩, rfl, hVersion, hSpoken, rfl,
      hUrl⟩

example :
    parse (Utf8.ofText "GET /a  b hTtP/1.7") =
      .ok { method := .get, version := ⟨1, 7⟩, target := "/a  b", url := { path := "/a  b" } } := by
  rfl

end Headline
end HttpServer
