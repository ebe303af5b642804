import HttpServer.Proofs.PathEscapes
import HttpServer.Url

/-!
# The form of targets

A target that was split can only have parts of a certain form (`Url.Printable`): names without delimiters, but for what
stands in brackets, a path with a slash in front, and a query without a number sign.  `Url.printable_of_parse` says so;
it follows the scan, and `Url.Scan.Reading` is what is true of it between two characters.
-/

namespace HttpServer.Url

/-! ## Names -/

/-- The characters that separate the parts of a target. -/
def delimiters : List Char :=
  [':', '@', '/', '?', '#']

/-- No character of the text separates. -/
def IsPlain (cs : List Char) : Prop :=
  ∀ c ∈ cs, c ∉ delimiters

/-- What can be read as a scheme, a user, or a host: a plain text, or one that begins with anything in brackets. -/
inductive IsName : List Char → Prop
  | plain {c : Char} {cs : List Char} (hFirst : c ≠ '[') (hPlain : IsPlain (c :: cs)) : IsName (c :: cs)
  | literal {inner rest : List Char} (hInner : ']' ∉ inner) (hPlain : IsPlain rest) :
    IsName ('[' :: (inner ++ ']' :: rest))

section Names

variable {c : Char} {cs ds : List Char}

theorem isPlain_append (h : IsPlain cs) (h' : IsPlain ds) : IsPlain (cs ++ ds) := by
  intro c hc
  rcases List.mem_append.mp hc with hc | hc
  · exact h c hc
  · exact h' c hc

theorem isPlain_reverse (h : IsPlain cs) : IsPlain cs.reverse :=
  fun c hc => h c (List.mem_reverse.mp hc)

theorem isPlain_cons_iff : IsPlain (c :: cs) ↔ c ∉ delimiters ∧ IsPlain cs := by
  simp [IsPlain]

theorem IsName.ne_nil (h : IsName cs) : cs ≠ [] := by
  cases h <;> simp

theorem IsName.concat (h : IsName cs) (hc : c ∉ delimiters) : IsName (cs ++ [c]) := by
  have hLast : IsPlain [c] := by simpa [IsPlain] using hc
  cases h with
  | plain hFirst hPlain => exact .plain hFirst (isPlain_append hPlain hLast)
  | @literal inner rest hInner hPlain =>
    have hRest := IsName.literal hInner (isPlain_append hPlain hLast)
    simpa using hRest

end Names

/-! ## The parts of a target -/

/-- The form of the parts that a target can have. -/
structure Printable (u : Url) : Prop where
  scheme : u.scheme = "" ∨ IsName u.scheme.toList
  username : u.username = "" ∨ IsName u.username.toList
  /-- There is no password without a user. -/
  password : u.password = "" ∨ u.username ≠ "" ∧ IsPlain u.password.toList
  host : u.host = "" ∨ IsName u.host.toList
  /-- Nothing stands in front of a host that is not there. -/
  origin : u.host = "" → u.scheme = "" ∧ u.username = "" ∧ u.password = "" ∧ u.port = 0
  path : u.path = "" ∨ u.path.toList.head? = some '/'
  query : '#' ∉ u.query.toList
  /-- There is a host or a path. -/
  anchor : u.host = "" → u.path ≠ ""

/-- The parts in front of a host; all others are still empty. -/
structure InFront (u : Url) : Prop where
  scheme : u.scheme = "" ∨ IsName u.scheme.toList
  username : u.username = "" ∨ IsName u.username.toList
  password : u.password = "" ∨ u.username ≠ "" ∧ IsPlain u.password.toList
  rest : u.host = "" ∧ u.port = 0 ∧ u.path = "" ∧ u.query = "" ∧ u.fragment = ""

section Parts

variable {u : Url}

theorem inFront_empty : InFront {} :=
  ⟨.inl rfl, .inl rfl, .inl rfl, rfl, rfl, rfl, rfl, rfl⟩

theorem ne_empty_of_head? {path : String} (h : path.toList.head? = some '/') : path ≠ "" := by
  rintro rfl
  simp at h

theorem InFront.printable (h : InFront u) {host : String} (hHost : IsName host.toList) (port : UInt16) :
    Printable { u with host, port } := by
  have hSome : host ≠ "" := by
    rintro rfl
    exact hHost.ne_nil rfl
  obtain ⟨-, -, hPath, hQuery, -⟩ := h.rest
  exact ⟨h.scheme, h.username, h.password, .inr hHost, fun hNone => absurd hNone hSome, .inl hPath,
    by simp [hQuery], fun hNone => absurd hNone hSome⟩

/-- A path needs nothing in front of it. -/
theorem printable_path {path : String} (hPath : path.toList.head? = some '/') : Printable { path } :=
  ⟨.inl rfl, .inl rfl, .inl rfl, .inl rfl, fun _ => ⟨rfl, rfl, rfl, rfl⟩, .inr hPath, by simp,
    fun _ => ne_empty_of_head? hPath⟩

theorem Printable.withPath (h : Printable u) {path : String} (hPath : path.toList.head? = some '/') :
    Printable { u with path } :=
  ⟨h.scheme, h.username, h.password, h.host, h.origin, .inr hPath, h.query, fun _ => ne_empty_of_head? hPath⟩

theorem Printable.withQuery (h : Printable u) {query : String} (hQuery : '#' ∉ query.toList) :
    Printable { u with query } :=
  ⟨h.scheme, h.username, h.password, h.host, h.origin, h.path, hQuery, h.anchor⟩

theorem Printable.withFragment (h : Printable u) (fragment : String) : Printable { u with fragment } :=
  ⟨h.scheme, h.username, h.password, h.host, h.origin, h.path, h.query, h.anchor⟩

/-- Without a path there is nothing to decode. -/
theorem decodePath_eq_self (hPath : u.path = "") : u.decodePath = u := by
  have hEmpty : Percent.decode? "" = some "" := Percent.decode?_encodePath ""
  obtain ⟨scheme, username, password, host, port, path, query, fragment⟩ := u
  obtain rfl : path = "" := hPath
  simp [Url.decodePath, hEmpty]

theorem Printable.decodePath (h : Printable u) : Printable u.decodePath := by
  rcases h.path with hNone | hSlash
  · rwa [decodePath_eq_self hNone]
  · refine h.withPath ?_
    cases hDecode : Percent.decode? u.path with
    | none => exact hSlash
    | some path => exact Percent.head?_of_decode? hDecode hSlash

end Parts

/-! ## The scan -/

namespace Scan

/-- What has been read of a name; the flag says whether a bracket is open. -/
inductive OpenName : List Char → Bool → Prop
  | nothing : OpenName [] false
  | name {cs : List Char} (h : IsName cs) : OpenName cs false
  | bracket {inner : List Char} (h : ']' ∉ inner) : OpenName ('[' :: inner) true

/-- What is true between two characters. -/
inductive Reading : Scan → Prop
  | schemeOrHost {segment : List Char} {bracketed : Bool} (hName : OpenName segment.reverse bracketed) :
    Reading ⟨.schemeOrHost, segment, bracketed, {}⟩
  | host {segment : List Char} {bracketed : Bool} {u : Url} (hFront : InFront u)
      (hName : OpenName segment.reverse bracketed) : Reading ⟨.host, segment, bracketed, u⟩
  | port {segment : List Char} {u : Url} {host : String} (hFront : InFront u) (hHost : IsName host.toList)
      (hPlain : IsPlain segment) : Reading ⟨.port, segment, false, { u with host }⟩
  /-- With any path behind it, what has been stored is a target that can be written. -/
  | path {segment : List Char} {u : Url}
      (hUrl : ∀ path : String, path.toList.head? = some '/' → Printable { u with path })
      (hSlash : segment.reverse.head? = some '/') : Reading ⟨.path, segment, false, u⟩
  | query {segment : List Char} {u : Url} (hUrl : Printable u) (hSign : '#' ∉ segment) :
    Reading ⟨.query, segment, false, u⟩
  | fragment {segment : List Char} {u : Url} (hUrl : Printable u) : Reading ⟨.fragment, segment, false, u⟩

section Steps

variable {s s' : Scan} {u : Url} {c : Char}

theorem bind_eq_ok_iff {α β : Type} {x : Except UrlError α} {f : α → Except UrlError β} {b : β} :
    (x >>= f) = .ok b ↔ ∃ a, x = .ok a ∧ f a = .ok b := by
  cases x <;> simp [bind, Except.bind]

theorem text?_eq_ok_iff {text : String} : s.text? = .ok text ↔ s.segment ≠ [] ∧ s.text = text := by
  unfold text?
  cases s.segment <;> simp

theorem colon_of_mayBeHost (h : s.part.mayBeHost = true) :
    s.colon = s.text? >>= fun host => .ok (s.enter .port { s.url with host }) := by
  obtain ⟨part, segment, bracketed, u⟩ := s
  cases part with
  | schemeOrHost | host => rfl
  | port | path | query | fragment => simp [Part.mayBeHost] at h

theorem atSign_of_mayBeHost (h : s.part.mayBeHost = true) :
    s.atSign = s.text? >>= fun username => .ok (s.enter .host { s.url with username }) := by
  obtain ⟨part, segment, bracketed, u⟩ := s
  cases part with
  | schemeOrHost | host => rfl
  | port | path | query | fragment => simp [Part.mayBeHost] at h

theorem numberSign_of_inAuthority (h : s.part.inAuthority = true) :
    s.numberSign = s.closeAuthority >>= fun url => .ok (s.enter .fragment url) := by
  obtain ⟨part, segment, bracketed, u⟩ := s
  cases part with
  | schemeOrHost | host | port => rfl
  | path | query | fragment => simp [Part.inAuthority] at h

theorem inAuthority_of_mayBeHost {part : Part} (h : part.mayBeHost = true) : part.inAuthority = true := by
  cases part with
  | schemeOrHost | host => rfl
  | port | path | query | fragment => simp [Part.mayBeHost] at h

theorem OpenName.isName {cs : List Char} (h : OpenName cs false) (hSome : cs ≠ []) : IsName cs := by
  cases h with
  | nothing => exact absurd rfl hSome
  | name hName => exact hName

/-- A name grows by a character that does not separate. -/
theorem OpenName.concat {cs : List Char} (h : OpenName cs false) (hc : c ∉ delimiters) :
    OpenName (cs ++ [c]) (c = '[' && cs.isEmpty) := by
  cases h with
  | nothing =>
    by_cases hBracket : c = '['
    · subst hBracket
      exact .bracket (by simp)
    · have hPlain : IsPlain [c] := by simpa [IsPlain] using hc
      simpa [hBracket] using OpenName.name (.plain hBracket hPlain)
  | name hName =>
    have hFlag : (c = '[' && cs.isEmpty) = false := by simp [hName.ne_nil]
    rw [hFlag]
    exact .name (hName.concat hc)

/-- In a bracket it grows by any character. -/
theorem OpenName.concat_of_bracketed {cs : List Char} (h : OpenName cs true) (c : Char) :
    OpenName (cs ++ [c]) (c != ']') := by
  cases h with
  | @bracket inner hInner =>
    by_cases hClose : c = ']'
    · subst hClose
      exact .name (.literal hInner (by simp [IsPlain]))
    · have hMore : ']' ∉ inner ++ [c] := by simp [hInner, Ne.symm hClose]
      have hOpen : (c != ']') = true := by simpa using hClose
      rw [hOpen]
      exact .bracket hMore

/-- The text of a name that may not be empty. -/
theorem isName_of_text? {text : String} (h : OpenName s.segment.reverse false) (hText : s.text? = .ok text) :
    IsName text.toList := by
  obtain ⟨hSome, rfl⟩ := text?_eq_ok_iff.mp hText
  rw [Scan.text, String.toList_ofList]
  exact h.isName (by simpa using hSome)

/-- A host, or the port behind one, ends what stands before the path. -/
theorem Reading.closeAuthority (h : Reading s) (hPart : s.part.inAuthority = true) (hOpen : s.bracketed = false)
    (hClose : s.closeAuthority = .ok u) : Printable u := by
  unfold Scan.closeAuthority at hClose
  obtain ⟨text, hText, hClose⟩ := bind_eq_ok_iff.mp hClose
  cases h with
  | schemeOrHost hName =>
    obtain rfl : _ = false := hOpen
    obtain rfl := Except.ok.inj hClose
    exact inFront_empty.printable (isName_of_text? hName hText) 0
  | host hFront hName =>
    obtain rfl : _ = false := hOpen
    obtain rfl := Except.ok.inj hClose
    exact hFront.printable (isName_of_text? hName hText) _
  | port hFront hHost hPlain =>
    dsimp only at hClose
    split at hClose
    · obtain rfl := Except.ok.inj hClose
      exact hFront.printable hHost _
    · contradiction
  | path | query | fragment => simp [Part.inAuthority] at hPart

/-- Behind the host only the sign of a fragment ends anything that the query could hold. -/
theorem Reading.push (h : Reading s) (hPart : s.part.inAuthority = false) (hSign : s.part = .query → c ≠ '#') :
    Reading (s.push c) := by
  cases h with
  | schemeOrHost | host | port => simp [Part.inAuthority] at hPart
  | path hUrl hSlash => exact .path hUrl (by rw [List.reverse_cons, List.head?_append, hSlash]; rfl)
  | query hUrl hNone => exact .query hUrl (by simp [hNone, Ne.symm (hSign rfl)])
  | fragment hUrl => exact .fragment hUrl

/-- A name that may end here has only what stands in front of a host before it. -/
theorem Reading.inFront (h : Reading s) (hHost : s.part.mayBeHost = true) (hOpen : s.bracketed = false) :
    InFront s.url ∧ OpenName s.segment.reverse false := by
  cases h with
  | schemeOrHost hName =>
    obtain rfl : _ = false := hOpen
    exact ⟨inFront_empty, hName⟩
  | host hFront hName =>
    obtain rfl : _ = false := hOpen
    exact ⟨hFront, hName⟩
  | port | path | query | fragment => simp [Part.mayBeHost] at hHost

theorem Reading.colon (h : Reading s) (hOpen : s.bracketed = false) (hStep : s.colon = .ok s') : Reading s' := by
  by_cases hNamed : s.part.mayBeHost = true
  · obtain ⟨hFront, hName⟩ := h.inFront hNamed hOpen
    rw [colon_of_mayBeHost hNamed] at hStep
    obtain ⟨host, hText, hStep⟩ := bind_eq_ok_iff.mp hStep
    obtain rfl := Except.ok.inj hStep
    rw [enter, hOpen]
    exact .port hFront (isName_of_text? hName hText) (by simp [IsPlain])
  cases h with
  | schemeOrHost | host => exact absurd rfl hNamed
  | port => contradiction
  | path hUrl hSlash =>
    obtain rfl := Except.ok.inj hStep
    exact (Reading.path hUrl hSlash).push rfl (by simp)
  | query hUrl hNone =>
    obtain rfl := Except.ok.inj hStep
    exact (Reading.query hUrl hNone).push rfl (by simp)
  | fragment hUrl =>
    obtain rfl := Except.ok.inj hStep
    exact .fragment hUrl

theorem ne_empty_of_isName {text : String} (h : IsName text.toList) : text ≠ "" := by
  rintro rfl
  exact h.ne_nil rfl

theorem Reading.atSign (h : Reading s) (hOpen : s.bracketed = false) (hStep : s.atSign = .ok s') : Reading s' := by
  by_cases hNamed : s.part.mayBeHost = true
  · obtain ⟨hFront, hName⟩ := h.inFront hNamed hOpen
    rw [atSign_of_mayBeHost hNamed] at hStep
    obtain ⟨username, hText, hStep⟩ := bind_eq_ok_iff.mp hStep
    obtain rfl := Except.ok.inj hStep
    have hUser := isName_of_text? hName hText
    rw [enter, hOpen]
    -- A password that was read before stays, and now belongs to this user.
    refine .host ⟨hFront.scheme, .inr hUser, ?_, hFront.rest⟩ .nothing
    exact hFront.password.imp_right fun hPassword => ⟨ne_empty_of_isName hUser, hPassword.2⟩
  cases h with
  | schemeOrHost | host => exact absurd rfl hNamed
  | @port segment u host hFront hHost hPlain =>
    obtain ⟨password, hText, hStep⟩ := bind_eq_ok_iff.mp hStep
    obtain ⟨-, rfl⟩ := text?_eq_ok_iff.mp hText
    obtain rfl := Except.ok.inj hStep
    have hPassword : IsPlain (String.ofList segment.reverse).toList := by
      rw [String.toList_ofList]
      exact isPlain_reverse hPlain
    obtain ⟨-, hRest⟩ := hFront.rest
    exact .host ⟨hFront.scheme, .inr hHost, .inr ⟨ne_empty_of_isName hHost, hPassword⟩, rfl, hRest⟩ .nothing
  | path hUrl hSlash =>
    obtain rfl := Except.ok.inj hStep
    exact (Reading.path hUrl hSlash).push rfl (by simp)
  | query hUrl hNone =>
    obtain rfl := Except.ok.inj hStep
    exact (Reading.query hUrl hNone).push rfl (by simp)
  | fragment hUrl =>
    obtain rfl := Except.ok.inj hStep
    exact .fragment hUrl

theorem Reading.slash (h : Reading s) (hOpen : s.bracketed = false) (hStep : s.slash = .ok s') : Reading s' := by
  unfold Scan.slash at hStep
  split at hStep
  · rename_i hFirst
    obtain rfl := Except.ok.inj hStep
    cases h with
    | schemeOrHost =>
      obtain rfl : _ = false := hOpen
      exact .path (fun _ hPath => printable_path hPath) rfl
    | host | port | path | query | fragment => simp at hFirst
  split at hStep
  · rename_i hPart
    obtain ⟨url, hClose, hStep⟩ := bind_eq_ok_iff.mp hStep
    obtain rfl := Except.ok.inj hStep
    have hUrl := h.closeAuthority hPart hOpen hClose
    obtain ⟨part, segment, bracketed, u⟩ := s
    obtain rfl : bracketed = false := hOpen
    exact .path (fun _ hPath => hUrl.withPath hPath) rfl
  · rename_i hPart
    obtain rfl := Except.ok.inj hStep
    exact h.push (by simpa using hPart) (by simp)

theorem Reading.questionMark (h : Reading s) (hOpen : s.bracketed = false) (hStep : s.questionMark = .ok s') :
    Reading s' := by
  unfold Scan.questionMark at hStep
  split at hStep
  · rename_i hPart
    obtain rfl := Except.ok.inj hStep
    cases h with
    | path hUrl hSlash => exact .query (hUrl _ (by rwa [Scan.text, String.toList_ofList])) (by simp)
    | schemeOrHost | host | port | query | fragment => simp at hPart
  split at hStep
  · rename_i hPart
    obtain ⟨url, hClose, hStep⟩ := bind_eq_ok_iff.mp hStep
    obtain rfl := Except.ok.inj hStep
    have hUrl := h.closeAuthority hPart hOpen hClose
    obtain ⟨part, segment, bracketed, u⟩ := s
    obtain rfl : bracketed = false := hOpen
    exact .query hUrl (by simp)
  · rename_i hPart
    obtain rfl := Except.ok.inj hStep
    exact h.push (by simpa using hPart) (by simp)

theorem Reading.numberSign (h : Reading s) (hOpen : s.bracketed = false) (hStep : s.numberSign = .ok s') :
    Reading s' := by
  by_cases hPart : s.part.inAuthority = true
  · rw [numberSign_of_inAuthority hPart] at hStep
    obtain ⟨url, hClose, hStep⟩ := bind_eq_ok_iff.mp hStep
    obtain rfl := Except.ok.inj hStep
    rw [enter, hOpen]
    exact .fragment (h.closeAuthority hPart hOpen hClose)
  cases h with
  | schemeOrHost | host | port => exact absurd rfl hPart
  | path hUrl hSlash =>
    obtain rfl := Except.ok.inj hStep
    exact .fragment (hUrl _ (by rwa [Scan.text, String.toList_ofList]))
  | query hUrl hNone =>
    obtain rfl := Except.ok.inj hStep
    exact .fragment (hUrl.withQuery (by simpa [Scan.text] using hNone))
  | fragment hUrl =>
    obtain rfl := Except.ok.inj hStep
    exact .fragment hUrl

/-- Any other character belongs to the open part. -/
theorem Reading.push_plain (h : Reading s) (hOpen : s.bracketed = false) (hc : c ∉ delimiters) :
    Reading { s.push c with bracketed := c = '[' && s.segment.isEmpty && s.part.mayBeHost } := by
  cases h with
  | @schemeOrHost segment bracketed hName =>
    obtain rfl : bracketed = false := hOpen
    have hMore := hName.concat hc
    rw [← List.reverse_cons, List.isEmpty_reverse] at hMore
    simpa [Scan.push, Part.mayBeHost] using Reading.schemeOrHost hMore
  | @host segment bracketed u hFront hName =>
    obtain rfl : bracketed = false := hOpen
    have hMore := hName.concat hc
    rw [← List.reverse_cons, List.isEmpty_reverse] at hMore
    simpa [Scan.push, Part.mayBeHost] using Reading.host hFront hMore
  | port hFront hHost hPlain =>
    simpa [Scan.push, Part.mayBeHost] using Reading.port hFront hHost (isPlain_cons_iff.mpr ⟨hc, hPlain⟩)
  | path hUrl hSlash =>
    simpa [Part.mayBeHost, Scan.push] using (Reading.path hUrl hSlash).push (c := c) rfl (by simp)
  | query hUrl hNone =>
    have hSign : c ≠ '#' := by
      rintro rfl
      exact hc (by simp [delimiters])
    simpa [Part.mayBeHost, Scan.push] using (Reading.query hUrl hNone).push rfl fun _ => hSign
  | fragment hUrl => simpa [Part.mayBeHost, Scan.push] using Reading.fragment hUrl

/-- What is true between two characters is kept by each. -/
theorem Reading.step (h : Reading s) (hStep : s.step c = .ok s') : Reading s' := by
  unfold Scan.step at hStep
  split at hStep
  · rename_i hBracketed
    obtain rfl := Except.ok.inj hStep
    cases h with
    | schemeOrHost hName =>
      obtain rfl : _ = true := hBracketed
      exact .schemeOrHost (by simpa [Scan.push] using hName.concat_of_bracketed c)
    | host hFront hName =>
      obtain rfl : _ = true := hBracketed
      exact .host hFront (by simpa [Scan.push] using hName.concat_of_bracketed c)
    | port | path | query | fragment => simp at hBracketed
  · rename_i hOpen
    have hOpen : s.bracketed = false := by simpa using hOpen
    split at hStep
    · obtain rfl := Except.ok.inj hStep
      simpa using h.push_plain hOpen (c := '[') (by decide)
    · exact h.colon hOpen hStep
    · exact h.atSign hOpen hStep
    · exact h.slash hOpen hStep
    · exact h.questionMark hOpen hStep
    · exact h.numberSign hOpen hStep
    · rename_i hBracket hColon hAt hSlash hMark hSign
      obtain rfl := Except.ok.inj hStep
      have hPlain := h.push_plain hOpen (c := c) (by simp_all [delimiters])
      have hFlag : (c = '[' && s.segment.isEmpty && s.part.mayBeHost) = s.bracketed := by
        rw [hOpen, decide_eq_false hBracket]
        rfl
      rwa [hFlag] at hPlain

theorem Reading.closeScheme (h : Reading s) (hOpen : s.bracketed = false) (hStep : s.closeScheme = .ok s') :
    Reading s' := by
  unfold Scan.closeScheme at hStep
  split at hStep
  · rename_i hPart
    obtain rfl := Except.ok.inj hStep
    cases h with
    | schemeOrHost hName =>
      obtain rfl : _ = false := hOpen
      have hScheme := hName.isName (by simpa using hPart.2)
      exact .host ⟨.inr (by rwa [Scan.text, String.toList_ofList]), .inl rfl, .inl rfl, inFront_empty.rest⟩ .nothing
    | host | port | path | query | fragment => simp at hPart
  · contradiction

/-- The induction is on the characters of the target; three of them end a scheme together. -/
theorem Reading.run {cs : List Char} (h : Reading s) (hRun : s.run cs = .ok s') : Reading s' := by
  fun_induction Scan.run s cs with
  | case1 s =>
    obtain rfl := Except.ok.inj hRun
    exact h
  | case2 s rest hScheme ih =>
    simp only [Bool.and_eq_true, Bool.not_eq_true'] at hScheme
    obtain ⟨s₁, hClose, hRun⟩ := bind_eq_ok_iff.mp hRun
    exact ih s₁ (h.closeScheme hScheme.1 hClose) hRun
  | case3 s rest hScheme ih =>
    obtain ⟨s₁, hStep, hRun⟩ := bind_eq_ok_iff.mp hRun
    exact ih s₁ (h.step hStep) hRun
  | case4 s c rest hOther ih =>
    obtain ⟨s₁, hStep, hRun⟩ := bind_eq_ok_iff.mp hRun
    exact ih s₁ (h.step hStep) hRun

theorem Reading.finish (h : Reading s) (hFinish : s.finish = .ok u) : Printable u := by
  unfold Scan.finish at hFinish
  split at hFinish
  · contradiction
  rename_i hOpen
  have hOpen : s.bracketed = false := by simpa using hOpen
  cases h with
  | path hUrl hSlash =>
    obtain rfl := Except.ok.inj hFinish
    exact hUrl _ (by rwa [Scan.text, String.toList_ofList])
  | query hUrl hNone =>
    obtain rfl := Except.ok.inj hFinish
    exact hUrl.withQuery (by simpa [Scan.text] using hNone)
  | fragment hUrl =>
    obtain rfl := Except.ok.inj hFinish
    exact hUrl.withFragment _
  | schemeOrHost hName => exact (Reading.schemeOrHost hName).closeAuthority rfl hOpen hFinish
  | host hFront hName => exact (Reading.host hFront hName).closeAuthority rfl hOpen hFinish
  | port hFront hHost hPlain => exact (Reading.port hFront hHost hPlain).closeAuthority rfl hOpen hFinish

end Steps

end Scan

/-- What a target can be split into; the empty target has no parts. -/
theorem printable_of_parse {raw : String} {u : Url} (h : parse raw = .ok u) : u = {} ∨ Printable u := by
  unfold parse at h
  split at h
  · exact .inl (Except.ok.inj h).symm
  · obtain ⟨s, hRun, h⟩ := Scan.bind_eq_ok_iff.mp h
    obtain ⟨url, hFinish, h⟩ := Scan.bind_eq_ok_iff.mp h
    obtain rfl := Except.ok.inj h
    have hStart : Scan.Reading {} := .schemeOrHost .nothing
    exact .inr ((hStart.run hRun).finish hFinish).decodePath

end HttpServer.Url
