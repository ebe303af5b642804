import HttpServer.Proofs.FramingFields
import HttpServer.Proofs.ReadFailures
import HttpServer.Proofs.TargetRoundTrip
import Mathlib.Data.Nat.Digits.Defs

/-!
# The host of a request

A request names its host twice: in the field `Host` and, if it is written in absolute form, in its target.  A field that
names no host gives way to the target (`Headers.get?_amend_host`).  What the target has in its place was split off by a
scan that knows delimiters only, so it need not be a host either: `Url.isValid_authority` says that the port behind it
does not matter, `Connection.host_of_readRequest` what is left for a handler to find, and
`Connection.readRequest_keeps_misnamed` that this can be the words that were to go.
-/

namespace HttpServer

/-! ## Two grammars of hosts -/

namespace Host

variable {cs : List Char}

/-- A registered name is judged by its characters, with or without a port. -/
theorem isValidChars_of_plain (hFirst : cs.head? ≠ some '[') (hColon : ':' ∉ cs) :
    isValidChars cs = isRun isNameChar cs := by
  have hCut : cutLast ':' cs = none := by
    cases h : cutLast ':' cs with
    | none => rfl
    | some parts =>
      obtain ⟨rfl, -⟩ := cutLast_eq_some_iff.mp h
      simp at hColon
  unfold isValidChars
  split
  · simp at hFirst
  · simp [hCut]

theorem isValidChars_withPort (hFirst : cs.head? ≠ some '[') (hSome : cs ≠ []) {port : List Char}
    (hPort : ':' ∉ port) : isValidChars (cs ++ ':' :: port) = (isRun isNameChar cs && isPort port) := by
  have hCut : cutLast ':' (cs ++ ':' :: port) = some (cs, port) := cutLast_eq_some_iff.mpr ⟨rfl, hPort⟩
  unfold isValidChars
  split
  · rename_i hHead
    cases cs with
    | nil => exact absurd rfl hSome
    | cons c cs =>
      simp only [List.cons_append, List.cons.injEq] at hHead
      simp [hHead.1] at hFirst
  · simp [hCut]

/-- An address ends at the first closing bracket. -/
theorem isValidChars_literal {inner : List Char} (hInner : ']' ∉ inner) (rest : List Char) :
    isValidChars ('[' :: (inner ++ ']' :: rest)) = (isRun isAddressChar inner && isPortSuffix rest) := by
  have hCut : cutFirst ']' (inner ++ ']' :: rest) = some (inner, rest) := cutFirst_eq_some_iff.mpr ⟨rfl, hInner⟩
  simp [isValidChars, hCut]

/-- The number of a port has five digits at most. -/
theorem isPort_decimal (port : UInt16) : isPort (decimal port.toNat) = true := by
  have hDigits : (decimal port.toNat).all Char.isDigit = true :=
    List.all_eq_true.mpr fun c hc => isDigit_of_mem_decimal hc
  have hPort : port.toNat < 10 ^ 5 := by
    have hSize := port.toNat_lt
    omega
  have hLength : (decimal port.toNat).length ≤ 5 := Nat.toDigits_length 10 port.toNat 5 (by omega) hPort
  simp [isPort, hDigits, hLength]

end Host

namespace Url

variable {u : Url}

theorem colon_not_mem_of_isPlain {cs : List Char} (h : IsPlain cs) : ':' ∉ cs :=
  fun hMem => h ':' hMem (by decide)

/-- Whether a name with a port is a host does not depend on the port. -/
theorem isValid_of_isName (h : IsName u.host.toList) : Host.isValid u.authority = Host.isValid u.host := by
  by_cases hPort : u.port = 0
  · simp [authority, hPort]
  have hAuthority : u.authority.toList = u.host.toList ++ ':' :: decimal u.port.toNat := by
    simp [authority, hPort]
  have hDigits := colon_not_mem_of_isPlain (Scan.isPlain_decimal u.port.toNat)
  unfold Host.isValid
  rw [hAuthority]
  generalize u.host.toList = cs at h ⊢
  cases h with
  | @plain c cs hFirst hPlain =>
    have hHead : (c :: cs).head? ≠ some '[' := by simpa using hFirst
    rw [Host.isValidChars_withPort hHead (by simp) hDigits,
      Host.isValidChars_of_plain hHead (colon_not_mem_of_isPlain hPlain), Host.isPort_decimal, Bool.and_true]
  | @literal inner rest hInner hPlain =>
    -- Behind the bracket only a port may stand, and what the scan left there begins with no colon.
    have hSuffix : Host.isPortSuffix (rest ++ ':' :: decimal u.port.toNat) = Host.isPortSuffix rest := by
      cases rest with
      | nil => simp [Host.isPortSuffix, Host.isPort_decimal]
      | cons c rest =>
        have hOther : c ≠ ':' := fun hc => colon_not_mem_of_isPlain hPlain (by simp [hc])
        simp [Host.isPortSuffix, hOther]
    have hShape : '[' :: (inner ++ ']' :: rest) ++ ':' :: decimal u.port.toNat =
        '[' :: (inner ++ ']' :: (rest ++ ':' :: decimal u.port.toNat)) := by simp
    rw [hShape, Host.isValidChars_literal hInner, Host.isValidChars_literal hInner, hSuffix]

/-- The authority of a target is a host if and only if the part in front of the port is one. -/
theorem isValid_authority {raw : String} (h : parse raw = .ok u) (hHost : u.host ≠ "") :
    Host.isValid u.authority = Host.isValid u.host := by
  rcases printable_of_parse h with rfl | hPrintable
  · exact absurd rfl hHost
  · exact isValid_of_isName (hPrintable.host.resolve_left hHost)

end Url

/-! ## The field behind the rewriting -/

namespace Headers

variable {h : Headers} {url : Url}

/-- The host that a handler finds: the one that was written if it is one, and the authority of the target if not. -/
def effectiveHost (written : Option String) (url : Url) : Option String :=
  if written.any Host.isValid then written
  else if url.host = "" then none
  else some url.authority

theorem get?_amend_host (hFields : IsCanonical h.fields) :
    (h.amend url).get? "Host" = effectiveHost (h.get? "Host") url := by
  have hName : canonicalName "Host" = "Host" := by decide
  have hSame : sameIgnoringCase "Host" "Host" = true := by decide
  rw [amend, get?_amendPragma_of_ne (by decide), amendHost, effectiveHost]
  split
  · rfl
  simp only [String.isEmpty_iff]
  split
  · exact get?_remove_of_eq h hSame
  · exact get?_insert_of_eq hFields hName hSame

/-- What is left is no host only where a target has something in the place of its host that is none, and no field makes
up for it. -/
theorem all_isValid_effectiveHost {raw : String} (hParse : Url.parse raw = .ok url) (written : Option String) :
    (effectiveHost written url).all Host.isValid = true ↔
      written.any Host.isValid = true ∨ url.host = "" ∨ Host.isValid url.host = true := by
  unfold effectiveHost
  split
  · rename_i hWritten
    cases written with
    | none => simp at hWritten
    | some value =>
      have hValue : Host.isValid value = true := by simpa using hWritten
      simp [hValue]
  rename_i hWritten
  split
  · rename_i hNone
    simp [hNone]
  · rename_i hHost
    simp [hWritten, hHost, Url.isValid_authority hParse hHost]

/-- What the rewriting makes of the host, and when it is one. -/
theorem host_amend {raw : String} (hFields : IsCanonical h.fields) (hParse : Url.parse raw = .ok url) :
    (h.amend url).get? "Host" = effectiveHost (h.get? "Host") url ∧
      (((h.amend url).get? "Host").all Host.isValid = true ↔
        (h.get? "Host").any Host.isValid = true ∨ url.host = "" ∨ Host.isValid url.host = true) := by
  rw [get?_amend_host hFields]
  exact ⟨rfl, all_isValid_effectiveHost hParse _⟩

end Headers

namespace Connection

/-- **The host that is left over.**  If the last field that the lines of a block give names a host, it stays; otherwise
the authority of the target takes its place.  So what a handler finds is no host exactly if the field names none and the
target has something in the place of its host that is none either.  The same is true of the rewriting of any store
behind any target. -/
theorem host_of_readRequest (limits : Limits) (c : Connection) :
    (∀ request c', c.readRequest limits = (.ok request, c') →
      let written := (keptFields (blockLines c.remaining)).reverse.lookup "Host"
      request.headers.get? "Host" = Headers.effectiveHost written request.url ∧
        ((request.headers.get? "Host").all Host.isValid = true ↔
          written.any Host.isValid = true ∨ request.url.host = "" ∨ Host.isValid request.url.host = true)) ∧
    ∀ (h : Headers) (raw : String) (url : Url), IsCanonical h.fields → Url.parse raw = .ok url →
      (h.amend url).get? "Host" = Headers.effectiveHost (h.get? "Host") url ∧
        (((h.amend url).get? "Host").all Host.isValid = true ↔
          (h.get? "Host").any Host.isValid = true ∨ url.host = "" ∨ Host.isValid url.host = true) := by
  refine ⟨fun request c' hRead => ?_, fun h raw url => Headers.host_amend⟩
  obtain ⟨f, hYields, -, hLines⟩ := framing_of_readRequest hRead
  obtain ⟨block, hPush, hHeaders⟩ := hYields.headers
  have hName : canonicalName "Host" = "Host" := by decide
  rw [← hLines, ← hName, ← HeaderBlock.get?_of_pushAll hPush, hName, hHeaders]
  exact Headers.host_amend (HeaderBlock.isCanonical_of_pushAll hPush) (Headline.url_of_parse hYields.headline)

/-! ### Two targets behind the same field -/

/-- A request in absolute form, with a field that names no host. -/
def misnamed (target : String) : Framing where
  headline := Utf8.ofText ("GET " ++ target ++ " HTTP/1.1\r")
  fields := [Utf8.ofText "Host: bad host!\r"]
  blank := [carriageReturn]
  body := []

theorem pushAll_misnamed (target : String) :
    HeaderBlock.pushAll { maxSize := 1048576 } ((misnamed target).fields.map stripReturn) =
      .ok { headers := { fields := [("Host", "bad host!")] }, openField := some "Host", size := 17,
            maxSize := 1048576 } := by
  change HeaderBlock.pushAll { maxSize := 1048576 } ([Utf8.ofText "Host: bad host!\r"].map stripReturn) = _
  cbv

/-- A target with a host in it gives that one. -/
theorem yields_misnamed_replaced :
    (misnamed "http://example.com:8080/x").Yields {}
      { method := .get, target := "http://example.com:8080/x",
        url := { scheme := "http", host := "example.com", port := 8080, path := "/x" },
        headers := { fields := [("Host", "example.com:8080")] } } :=
  ⟨rfl, ⟨_, pushAll_misnamed _, by decide +kernel⟩, fun _ => rfl, rfl, rfl, rfl⟩

/-- A target in which the same words stand gives them back. -/
theorem yields_misnamed_copied :
    (misnamed "http://bad host!/x").Yields {}
      { method := .get, target := "http://bad host!/x", url := { scheme := "http", host := "bad host!", path := "/x" },
        headers := { fields := [("Host", "bad host!")] } } :=
  ⟨rfl, ⟨_, pushAll_misnamed _, by decide +kernel⟩, fun _ => rfl, rfl, rfl, rfl⟩

theorem host_of_readRequest_replaced :
    let c := fresh 4096 { chunks := [(misnamed "http://example.com:8080/x").bytes] }
    ∃ request c', c.readRequest {} = (.ok request, c') ∧
      request.headers.get? "Host" = some "example.com:8080" ∧
      (request.headers.get? "Host").all Host.isValid = true := by
  intro c
  obtain ⟨c', hRead⟩ := readRequest_of_framing 4096 ⟨by decide, by decide, rfl⟩
    ⟨by decide, by decide, by decide, by decide⟩ yields_misnamed_replaced
  have hHost : Host.isValid "example.com" = true := by decide
  exact ⟨_, c', hRead, rfl, ((host_of_readRequest {} c).1 _ c' hRead).2.mpr (.inr (.inr hHost))⟩

/-- No check is made of what takes the place of a field, so a request keeps a field that names no host. -/
theorem readRequest_keeps_misnamed :
    let c := fresh 4096 { chunks := [(misnamed "http://bad host!/x").bytes] }
    ∃ request c', c.readRequest {} = (.ok request, c') ∧ request.headers.get? "Host" = some "bad host!" ∧
      Host.isValid "bad host!" = false := by
  intro c
  obtain ⟨c', hRead⟩ := readRequest_of_framing 4096 ⟨by decide, by decide, rfl⟩
    ⟨by decide, by decide, by decide, by decide⟩ yields_misnamed_copied
  exact ⟨_, c', hRead, rfl, by decide⟩

end Connection

end HttpServer
