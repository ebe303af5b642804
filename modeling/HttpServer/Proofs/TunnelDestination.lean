import HttpServer.Proofs.HostField
import HttpServer.Proofs.Trimming
import HttpServer.Tunnel

/-!
# Where a tunnel leads

A tunnel is opened to the host of a request, and the code that opens it looks at three parts of that host only: it has
to have a name, a port, and no path.  That it has nothing else either (`Tunnel.destination_of_readRequest`) is the work
of those who let it through before: the host of a request that was read is the value of a field that names a host, or
the authority of its target (`Headers.hasHostForm_effectiveHost`), and both are a name with a port behind it at most.

Only the blanks in front of such a name can go, which may lay bare a bracket that did not count as one before.  Then
the bracket is not closed, or what it closes is a name again (`Url.Scan.OpenName`).
-/

namespace HttpServer

namespace Url

namespace Scan

variable {cs port : List Char} {bracketed : Bool} {u : Url}

/-- A text without separators is a name, unless it is empty or begins with a bracket that is not closed. -/
theorem exists_openName_of_isPlain (h : IsPlain cs) : ∃ bracketed, OpenName cs bracketed := by
  cases cs with
  | nil => exact ⟨false, .nothing⟩
  | cons c cs =>
    by_cases hBracket : c = '['
    · subst hBracket
      by_cases hClose : ']' ∈ cs
      · obtain ⟨inner, rest, rfl, hInner⟩ := List.eq_append_cons_of_mem hClose
        have hRest : IsPlain rest := fun c hc => h c (by simp [hc])
        exact ⟨false, .name (.literal hInner hRest)⟩
      · exact ⟨true, .bracket hClose⟩
    · exact ⟨false, .name (.plain hBracket h)⟩

theorem exists_openName_dropWhile (h : IsName cs) : ∃ bracketed, OpenName (cs.dropWhile isBlank) bracketed := by
  cases h with
  | plain hFirst hPlain =>
    exact exists_openName_of_isPlain fun c hc => hPlain c ((List.dropWhile_suffix isBlank).mem hc)
  | literal hInner hPlain =>
    have hBlank : isBlank '[' = false := by decide
    rw [List.dropWhile_cons, hBlank]
    exact ⟨false, .name (.literal hInner hPlain)⟩

theorem exists_openName_trim (h : IsName cs) : ∃ bracketed, OpenName (trim cs) bracketed := by
  cases h with
  | plain hFirst hPlain => exact exists_openName_of_isPlain fun c hc => hPlain c (mem_of_mem_trim hc)
  | @literal inner rest hInner hPlain =>
    have hBlank : isBlank '[' = false ∧ isBlank ']' = false := by decide
    have hTrim : trim ('[' :: (inner ++ ']' :: rest)) = '[' :: (inner ++ ']' :: rest.rdropWhile isBlank) := by
      rw [← List.cons_append, trim_append_cons hBlank.2, List.dropWhile_cons, hBlank.1]
      rfl
    rw [hTrim]
    exact ⟨false, .name (.literal hInner fun c hc => hPlain c ((List.rdropWhile_prefix isBlank rest).mem hc))⟩

/-! ## Names with a port -/

/-- A bracket that is not closed takes in the rest of a target. -/
theorem read_unclosed {inner : List Char} (hInner : ']' ∉ inner) : read {} ('[' :: inner) = .error .invalidFormat := by
  have hOpening : step {} '[' = .ok ⟨.schemeOrHost, ['['], true, {}⟩ := rfl
  rw [read_cons hOpening (by simp), ← List.append_nil inner, read_bracketed rfl hInner, read_nil]
  rfl

/-- A text that may stand in front of a port has no port by itself. -/
theorem port_of_openName (h : OpenName cs bracketed) (hParse : parse (String.ofList cs) = .ok u) : u.port = 0 := by
  cases h with
  | nothing =>
    obtain rfl : {} = u := Except.ok.inj hParse
    rfl
  | name hName =>
    have hHost : IsName (String.ofList cs).toList := by rwa [String.toList_ofList]
    have hHere := (inFront_empty.printable hHost 0).parse_authority (ne_empty_of_isName hHost)
    obtain rfl := Except.ok.inj (hParse.symm.trans hHere)
    rfl
  | bracket hInner =>
    obtain ⟨url, hRead, -⟩ := read_of_parse hParse (by simp)
    rw [String.toList_ofList, read_unclosed hInner] at hRead
    contradiction

/-- Digits behind a colon are a port if a name stands in front. -/
theorem parse_withPort (h : OpenName cs bracketed) (hPort : ∀ c ∈ port, c.isDigit = true)
    (hParse : parse (String.ofList (cs ++ ':' :: port)) = .ok u) :
    IsName cs ∧ IsNumeral port u.port.toNat ∧ u = { host := String.ofList cs, port := u.port } := by
  obtain ⟨url, hRead, hDecode⟩ := read_of_parse hParse (by simp)
  rw [String.toList_ofList] at hRead
  have hPlain := isPlain_of_isDigit hPort
  have hAlone : ¬['/', '/'] <+: port ++ [] := by
    rintro ⟨more, hChars⟩
    rw [List.append_nil] at hChars
    exact hPlain '/' (by simp [← hChars]) (by decide)
  cases h with
  | nothing =>
    have hStep : step {} ':' = .error .invalidFormat := rfl
    rw [List.append_nil] at hAlone
    simp only [read, List.nil_append, run_cons fun _ => .inr (.inr hAlone), hStep] at hRead
    contradiction
  | @bracket inner hInner =>
    have hClose : ']' ∉ port := fun hMem => absurd (hPort _ hMem) (by decide)
    have hMore : ']' ∉ inner ++ ':' :: port := by simp [hInner, hClose]
    rw [List.cons_append, read_unclosed hMore] at hRead
    contradiction
  | name hName =>
    have hStart : Ready {} {} := ⟨rfl, rfl, rfl, rfl⟩
    have hHost := hStart.read_withPort hName hPlain hAlone
    rw [List.append_nil, hRead, read_nil] at hHost
    have hClose : (pushAll ⟨.port, [], false, { host := String.ofList cs }⟩ port).closeAuthority = .ok url :=
      hHost.symm
    by_cases hSome : port = []
    · rw [hSome] at hClose
      contradiction
    rw [closeAuthority_port hSome] at hClose
    split at hClose
    · rename_i n hNumber
      obtain ⟨hNumeral, hMax⟩ := readDecimal?_eq_some_iff.mp hNumber
      obtain rfl := Except.ok.inj hClose
      rw [decodePath_eq_self rfl] at hDecode
      subst hDecode
      have hValue : n.toUInt16.toNat = n := by
        simp
        omega
      exact ⟨hName, by rwa [hValue], rfl⟩
    · contradiction

end Scan

/-! ## Addresses -/

/-- What a host field may come down to: a name, and a colon with digits behind it or nothing. -/
def HasHostForm (cs : List Char) : Prop :=
  ∃ name, IsName name ∧ (cs = name ∨ ∃ port : List Char, (∀ c ∈ port, c.isDigit = true) ∧ cs = name ++ ':' :: port)

/-- The text is a target that has a host and a port and nothing else, and it is written as the host, a colon and the
port in digits. -/
def IsAddress (text : String) : Prop :=
  ∃ (host : String) (port : UInt16) (digits : List Char),
    parse text = .ok { host, port } ∧ host ≠ "" ∧ 1 ≤ port.toNat ∧ port.toNat ≤ 65535 ∧
      IsNumeral digits port.toNat ∧ text = host ++ ":" ++ String.ofList digits

variable {u : Url} {cs : List Char}

theorem one_le_toNat {port : UInt16} (h : port ≠ 0) : 1 ≤ port.toNat := by
  have hZero : port.toNat ≠ 0 := fun hZero => h (UInt16.toNat_inj.mp hZero)
  omega

/-- A text of this form that is a target with a port is an address, also without the blanks at its ends. -/
theorem HasHostForm.isAddress_trim (h : HasHostForm cs) (hParse : parse (String.ofList (trim cs)) = .ok u)
    (hPort : u.port ≠ 0) : IsAddress (String.ofList (trim cs)) := by
  obtain ⟨name, hName, rfl | ⟨port, hDigits, rfl⟩⟩ := h
  · obtain ⟨bracketed, hOpen⟩ := Scan.exists_openName_trim hName
    exact absurd (Scan.port_of_openName hOpen hParse) hPort
  · have hColon : isBlank ':' = false := by decide
    have hRest : ∀ c ∈ port.rdropWhile isBlank, c.isDigit = true :=
      fun c hc => hDigits c ((List.rdropWhile_prefix isBlank port).mem hc)
    rw [trim_append_cons hColon] at hParse ⊢
    obtain ⟨bracketed, hOpen⟩ := Scan.exists_openName_dropWhile hName
    obtain ⟨hHost, hNumeral, hParts⟩ := Scan.parse_withPort hOpen hRest hParse
    have hHost' : IsName (String.ofList (name.dropWhile isBlank)).toList := by rwa [String.toList_ofList]
    refine ⟨_, u.port, _, hParse.trans (congrArg _ hParts), Scan.ne_empty_of_isName hHost', one_le_toNat hPort,
      Nat.le_of_lt_succ u.port.toNat_lt, hNumeral, ?_⟩
    simp [String.append_assoc]

/-- Nothing stands behind a host that is not there. -/
theorem authority_eq_empty {raw : String} (hParse : parse raw = .ok u) (hHost : u.host = "") : u.authority = "" := by
  have hPort : u.port = 0 := by
    rcases printable_of_parse hParse with rfl | hPrintable
    · rfl
    · exact (hPrintable.origin hHost).2.2.2
  rw [authority, if_pos hPort, hHost]

/-- The authority of a target has this form. -/
theorem hasHostForm_authority {raw : String} (hParse : parse raw = .ok u) (hHost : u.host ≠ "") :
    HasHostForm u.authority.toList := by
  have hName : IsName u.host.toList := by
    rcases printable_of_parse hParse with rfl | hPrintable
    · exact absurd rfl hHost
    · exact hPrintable.host.resolve_left hHost
  refine ⟨u.host.toList, hName, ?_⟩
  by_cases hPort : u.port = 0
  · exact .inl (by rw [authority, if_pos hPort])
  · refine .inr ⟨decimal u.port.toNat, fun c hc => isDigit_of_mem_decimal hc, ?_⟩
    simp [authority, hPort]

/-- The authority of a target is a target with a host and a port if and only if the target has both, and then it is an
address. -/
theorem isAddress_of_parse_authority {raw : String} {v : Url} (hParse : parse raw = .ok u)
    (hAuthority : parse u.authority = .ok v) (hHost : v.host ≠ "") (hPort : v.port ≠ 0) : IsAddress u.authority := by
  have hName : u.host ≠ "" := by
    intro hNone
    rw [authority_eq_empty hParse hNone] at hAuthority
    obtain rfl : {} = v := Except.ok.inj hAuthority
    exact hHost rfl
  have hHere := (parse_toText hParse).2 hName
  obtain rfl := Except.ok.inj (hHere.symm.trans hAuthority)
  have hMax := Nat.le_of_lt_succ u.port.toNat_lt
  have hNumeral := (readDecimal?_eq_some_iff.mp (readDecimal?_decimal (Nat.le_refl u.port.toNat))).1
  refine ⟨u.host, u.port, _, hHere, hName, one_le_toNat hPort, hMax, hNumeral, ?_⟩
  rw [authority, if_neg hPort]

end Url

namespace Host

variable {cs : List Char}

theorem isName_of_isRun (h : isRun isNameChar cs = true) : Url.IsName cs := by
  have hNone : ('[' :: Url.delimiters).all (!isNameChar ·) = true := by decide
  have hOther : ∀ c, isNameChar c = true → c ∉ '[' :: Url.delimiters := by
    intro c hc hMem
    have hFalse := List.all_eq_true.mp hNone c hMem
    simp [hc] at hFalse
  simp only [isRun, Bool.and_eq_true, Bool.not_eq_true', List.isEmpty_eq_false_iff, List.all_eq_true] at h
  obtain ⟨hSome, hChars⟩ := h
  obtain ⟨c, cs, rfl⟩ := List.exists_cons_of_ne_nil hSome
  refine .plain ?_ fun d hd hMem => hOther d (hChars d hd) (List.mem_cons_of_mem _ hMem)
  rintro rfl
  exact hOther '[' (hChars '[' (by simp)) (by simp)

theorem isDigit_of_isPort {port : List Char} (h : isPort port = true) : ∀ c ∈ port, c.isDigit = true := by
  simp only [isPort, Bool.and_eq_true, List.all_eq_true] at h
  exact h.2

/-- So has a value that names a host. -/
theorem hasHostForm_of_isValidChars (h : isValidChars cs = true) : Url.HasHostForm cs := by
  unfold isValidChars at h
  split at h
  · split at h
    · rename_i address after hCut
      obtain ⟨rfl, hAddress⟩ := cutFirst_eq_some_iff.mp hCut
      have hName : Url.IsName ('[' :: (address ++ [']'])) := .literal hAddress (by simp [Url.IsPlain])
      refine ⟨_, hName, ?_⟩
      rw [Bool.and_eq_true] at h
      obtain ⟨-, hSuffix⟩ := h
      unfold isPortSuffix at hSuffix
      split at hSuffix
      · exact .inl rfl
      · rename_i port
        exact .inr ⟨port, isDigit_of_isPort hSuffix, by simp⟩
      · contradiction
    · contradiction
  · split at h
    · rename_i name port hCut
      obtain ⟨rfl, -⟩ := cutLast_eq_some_iff.mp hCut
      rw [Bool.and_eq_true] at h
      exact ⟨name, isName_of_isRun h.1, .inr ⟨port, isDigit_of_isPort h.2, rfl⟩⟩
    · exact ⟨_, isName_of_isRun h, .inl rfl⟩

end Host

namespace Headers

/-- Whatever host a handler finds, it is a name with a port behind it at most. -/
theorem hasHostForm_effectiveHost {raw : String} {url : Url} {written : Option String} {value : String}
    (hParse : Url.parse raw = .ok url) (h : effectiveHost written url = some value) :
    Url.HasHostForm value.toList := by
  unfold effectiveHost at h
  split at h
  · rename_i hValid
    rw [h] at hValid
    exact Host.hasHostForm_of_isValidChars (by simpa [Host.isValid] using hValid)
  · split at h
    · contradiction
    · rename_i hHost
      obtain rfl := Option.some.inj h
      exact Url.hasHostForm_authority hParse hHost

theorem effectiveHost_eq_none {url : Url} {written : Option String} (h : effectiveHost written url = none) :
    url.host = "" := by
  unfold effectiveHost at h
  split at h
  · rename_i hValid
    simp [h] at hValid
  · split at h
    · assumption
    · contradiction

end Headers

namespace Tunnel

variable {r : Request} {d : String}

/-- The text that is looked at: the value of the field, or the authority of the target if the field is blank or not
there. -/
def wanted (r : Request) : String :=
  let host := trimText ((r.header? "Host").getD "")
  if host.isEmpty then r.url.authority else host

theorem destination_eq_ok_iff :
    destination r = .ok d ↔
      r.version.noHigherThan .http11 = true ∧ r.method = .connect ∧ wanted r = d ∧
        ∃ u, Url.parse d = .ok u ∧ u.host ≠ "" ∧ u.port ≠ 0 ∧ u.path = "" := by
  constructor
  · intro h
    unfold destination at h
    split at h
    · cases h
    rename_i hVersion
    split at h
    · cases h
    rename_i hMethod
    dsimp only at h
    split at h
    · cases h
    rename_i u hParse
    split at h
    · cases h
    rename_i hParts
    obtain rfl := Except.ok.inj h
    simp only [Bool.or_eq_true, String.isEmpty_iff, beq_iff_eq, Bool.not_eq_true', not_or, Bool.not_eq_false] at hParts
    exact ⟨by simpa using hVersion, by simpa using hMethod, rfl, u, hParse, hParts.1.1, hParts.1.2, hParts.2⟩
  · rintro ⟨hVersion, hMethod, rfl, u, hParse, hHost, hPort, hPath⟩
    unfold wanted at hParse ⊢
    dsimp only at hParse
    unfold destination
    rw [if_neg (by simp [hVersion]), if_neg (by simp [hMethod])]
    dsimp only
    rw [hParse]
    simp [hHost, hPort, hPath]

theorem wanted_of_ne {value : String} (hHeader : r.header? "Host" = some value) (hSome : trimText value ≠ "") :
    wanted r = trimText value := by
  simp [wanted, hHeader, hSome]

theorem wanted_eq :
    wanted r = r.url.authority ∨ ∃ value, r.header? "Host" = some value ∧ wanted r = trimText value := by
  cases hHeader : r.header? "Host" with
  | none =>
    have hNone : trimText "" = "" := rfl
    exact .inl (by simp [wanted, hHeader, hNone])
  | some value =>
    by_cases hBlank : trimText value = ""
    · exact .inl (by simp [wanted, hHeader, hBlank])
    · exact .inr ⟨value, rfl, wanted_of_ne hHeader hBlank⟩

/-- **A tunnel leads to a host and a port.**  Take any request that was read, off any stream and under any limits.  If
it asks for a tunnel and gets a destination, this is an address: a host, a colon and the digits of a port, and a target
with these two parts alone.  Without a host field it gets none, and with one that is an address it gets this
address. -/
theorem destination_of_readRequest {limits : Limits} {c c' : Connection} {request : Request}
    (h : c.readRequest limits = (.ok request, c')) :
    (∀ d, destination request = .ok d → Url.IsAddress d) ∧
      (request.headers.get? "Host" = none → ∃ e, destination request = .error e) ∧
      ∀ value, request.headers.get? "Host" = some value → Url.IsAddress (trimText value) →
        request.version.noHigherThan .http11 = true → request.method = .connect →
          destination request = .ok (trimText value) := by
  obtain ⟨f, hYields, -, -⟩ := Connection.framing_of_readRequest h
  have hTarget := Headline.url_of_parse hYields.headline
  have hHost := ((Connection.host_of_readRequest limits c).1 request c' h).1
  refine ⟨fun d hDestination => ?_, fun hNone => ?_, fun value hValue hAddress hVersion hMethod => ?_⟩
  · obtain ⟨-, -, rfl, u, hParse, hSome, hPort, -⟩ := destination_eq_ok_iff.mp hDestination
    rcases wanted_eq (r := request) with hAuthority | ⟨value, hHeader, hTrim⟩
    · rw [hAuthority] at hParse ⊢
      exact Url.isAddress_of_parse_authority hTarget hParse hSome hPort
    · rw [hTrim] at hParse ⊢
      have hForm := Headers.hasHostForm_effectiveHost hTarget (hHost.symm.trans hHeader)
      exact hForm.isAddress_trim hParse hPort
  · cases hDestination : destination request with
    | error e => exact ⟨e, rfl⟩
    | ok d =>
      obtain ⟨-, -, rfl, u, hParse, hSome, -⟩ := destination_eq_ok_iff.mp hDestination
      have hEmpty := Url.authority_eq_empty hTarget (Headers.effectiveHost_eq_none (hHost.symm.trans hNone))
      have hBlank : trimText "" = "" := rfl
      have hWanted : wanted request = "" := by simp [wanted, Request.header?, hNone, hBlank, hEmpty]
      rw [hWanted] at hParse
      obtain rfl : {} = u := Except.ok.inj hParse
      exact absurd rfl hSome
  · obtain ⟨host, port, digits, hParse, hSome, hPort, -, -, hText⟩ := hAddress
    have hNotEmpty : trimText value ≠ "" := by simp [hText]
    have hZero : port ≠ 0 := by
      rintro rfl
      exact absurd hPort (by decide)
    exact destination_eq_ok_iff.mpr
      ⟨hVersion, hMethod, wanted_of_ne hValue hNotEmpty, _, hParse, hSome, hZero, rfl⟩

/-! ### A blank in front of the host -/

/-- A request for a tunnel to a target in authority form whose host begins with a blank. -/
def blankFirst : Framing where
  headline := Utf8.ofText "CONNECT \u00a0a:080 HTTP/1.1\r"
  fields := []
  blank := [carriageReturn]
  body := []

/-- The request that is read from it. -/
def blankFirstRequest : Request where
  method := .connect
  target := "\u00a0a:080"
  url := { host := "\u00a0a", port := 80 }
  headers := { fields := [("Host", "\u00a0a:80")] }

theorem yields_blankFirst : blankFirst.Yields {} blankFirstRequest :=
  ⟨rfl, ⟨_, rfl, by decide +kernel⟩, fun _ => rfl, rfl, rfl, rfl⟩

/-- The host of the request still begins with the blank, and the destination does not. -/
theorem destination_of_readRequest_blankFirst :
    let c := Connection.fresh 4096 { chunks := [blankFirst.bytes] }
    ∃ c', c.readRequest {} = (.ok blankFirstRequest, c') ∧ destination blankFirstRequest = .ok "a:80" ∧
      Url.IsAddress "a:80" := by
  intro c
  obtain ⟨c', hRead⟩ := Connection.readRequest_of_framing 4096 ⟨by decide, by decide, rfl⟩
    ⟨by decide, by decide, by decide, by decide⟩ yields_blankFirst
  have hDestination : destination blankFirstRequest = .ok "a:80" := by decide +kernel
  exact ⟨c', hRead, hDestination, (destination_of_readRequest hRead).1 _ hDestination⟩

end Tunnel

end HttpServer
