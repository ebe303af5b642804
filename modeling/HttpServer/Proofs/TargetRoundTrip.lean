import HttpServer.Proofs.TargetForm

/-!
# Targets are written as they are read

A target that was split and is written out again splits into the same parts, and the host of a target, written with its
port, is a target with these two parts alone (`Url.parse_toText`).

The target is written part by part, and the scan reads it part by part: `Scan.read` is a scan to the end of a target,
and each lemma about it says what becomes of the scan behind one part, whatever comes next.  A part is read as it was
written because of its form (`Url.Printable`), which any target that was split has.
-/

namespace HttpServer.Url

namespace Scan

/-- The parts of a target whose other characters were read before; its path is still as it is written. -/
def read (s : Scan) (cs : List Char) : Except UrlError Url := do
  let s ← s.run cs
  s.finish

variable {s s' : Scan} {u url : Url} {c : Char} {cs rest : List Char}

/-! ## One character -/

theorem read_nil : s.read [] = s.finish := by
  simp only [read, run]
  rfl

/-- A character is read on its own, unless it is a colon that ends a scheme. -/
theorem run_cons (hAlone : c = ':' → s.bracketed = true ∨ s.part.mayBeHost = false ∨ ¬['/', '/'] <+: rest) :
    s.run (c :: rest) = s.step c >>= fun s => s.run rest := by
  rw [run.eq_def]
  split
  · contradiction
  · rename_i after hChars
    obtain ⟨rfl, rfl⟩ := List.cons.inj hChars
    rw [if_neg]
    rcases hAlone rfl with hBracketed | hPart | hOther
    · simp [hBracketed]
    · simp [hPart]
    · simp at hOther
  · rename_i hChars
    obtain ⟨rfl, rfl⟩ := List.cons.inj hChars
    rfl

theorem run_scheme (hOpen : s.bracketed = false) (hPart : s.part.mayBeHost = true) :
    s.run (':' :: '/' :: '/' :: rest) = s.closeScheme >>= fun s => s.run rest := by
  rw [run]
  simp [hOpen, hPart]

theorem read_cons (hStep : s.step c = .ok s')
    (hAlone : c = ':' → s.bracketed = true ∨ s.part.mayBeHost = false ∨ ¬['/', '/'] <+: rest) :
    s.read (c :: rest) = s'.read rest := by
  simp only [read, run_cons hAlone, hStep]
  rfl

theorem read_scheme (hOpen : s.bracketed = false) (hPart : s.part.mayBeHost = true) (hClose : s.closeScheme = .ok s') :
    s.read (':' :: '/' :: '/' :: rest) = s'.read rest := by
  simp only [read, run_scheme hOpen hPart, hClose]
  rfl

/-- Such a character belongs to the open part, whatever the part is. -/
theorem step_plain (hOpen : s.bracketed = false) (hc : c ∉ delimiters)
    (hBracket : c = '[' → s.part.mayBeHost = true → s.segment ≠ []) : s.step c = .ok (s.push c) := by
  unfold step
  rw [if_neg (by simp [hOpen])]
  split
  · have hFlag : (s.segment.isEmpty && s.part.mayBeHost) = s.bracketed := by
      rw [hOpen, Bool.and_eq_false_iff]
      cases hPart : s.part.mayBeHost with
      | false => exact .inr rfl
      | true => exact .inl (by simpa using hBracket rfl hPart)
    rw [hFlag]
    rfl
  · simp [delimiters] at hc
  · simp [delimiters] at hc
  · simp [delimiters] at hc
  · simp [delimiters] at hc
  · simp [delimiters] at hc
  · rfl

/-- Behind the host a character belongs to the open part unless it opens the next one. -/
theorem step_behind (hOpen : s.bracketed = false) (hPart : s.part.inAuthority = false)
    (hMark : s.part = .path → c ≠ '?') (hSign : s.part ≠ .fragment → c ≠ '#') : s.step c = .ok (s.push c) := by
  by_cases hc : c ∈ delimiters
  · obtain ⟨part, segment, bracketed, url⟩ := s
    obtain rfl : bracketed = false := hOpen
    simp only [delimiters, List.mem_cons, List.not_mem_nil, or_false] at hc
    cases part with
    | schemeOrHost | host | port => simp [Part.inAuthority] at hPart
    | path =>
      rcases hc with rfl | rfl | rfl | rfl | rfl
      · rfl
      · rfl
      · rfl
      · exact absurd rfl (hMark rfl)
      · exact absurd rfl (hSign (by simp))
    | query =>
      rcases hc with rfl | rfl | rfl | rfl | rfl
      · rfl
      · rfl
      · rfl
      · rfl
      · exact absurd rfl (hSign (by simp))
    | fragment => rcases hc with rfl | rfl | rfl | rfl | rfl <;> rfl
  · refine step_plain hOpen hc fun _ hHost => ?_
    cases hWhich : s.part <;> simp [hWhich, Part.inAuthority, Part.mayBeHost] at hPart hHost

/-! ## Many characters -/

/-- The scan with more characters in the open part. -/
def pushAll (s : Scan) (cs : List Char) : Scan :=
  { s with segment := cs.reverse ++ s.segment }

theorem pushAll_cons : s.pushAll (c :: cs) = (s.push c).pushAll cs := by
  simp [pushAll, push]

theorem text_pushAll (h : s.segment = []) : (s.pushAll cs).text = String.ofList cs := by
  simp [pushAll, text, h]

/-- A text without separators belongs to the open part; where that is a name, a bracket does not come first. -/
theorem read_plain (hOpen : s.bracketed = false) (hPlain : IsPlain cs)
    (hBracket : s.part.mayBeHost = true → s.segment = [] → cs.head? ≠ some '[') :
    s.read (cs ++ rest) = (s.pushAll cs).read rest := by
  induction cs generalizing s with
  | nil => rfl
  | cons c cs ih =>
    obtain ⟨hc, hRest⟩ := isPlain_cons_iff.mp hPlain
    have hStep : s.step c = .ok (s.push c) := by
      refine step_plain hOpen hc fun hFirst hPart hNone => ?_
      exact hBracket hPart hNone (by simp [hFirst])
    rw [List.cons_append, read_cons hStep, pushAll_cons]
    · exact ih hOpen hRest fun _ hNone => by simp [push] at hNone
    · rintro rfl
      simp [delimiters] at hc

/-- In a bracket nothing separates. -/
theorem run_bracketed (hOpen : s.bracketed = true) (hInner : ']' ∉ cs) :
    s.run (cs ++ rest) = (s.pushAll cs).run rest := by
  induction cs generalizing s with
  | nil => rfl
  | cons c cs ih =>
    simp only [List.mem_cons, not_or] at hInner
    have hStep : s.step c = .ok (s.push c) := by
      have hFlag : (c != ']') = s.bracketed := by
        rw [hOpen]
        simpa using Ne.symm hInner.1
      unfold step
      rw [if_pos hOpen, hFlag]
      rfl
    rw [List.cons_append, run_cons fun _ => .inl hOpen, hStep, pushAll_cons]
    exact ih hOpen hInner.2

theorem read_bracketed (hOpen : s.bracketed = true) (hInner : ']' ∉ cs) :
    s.read (cs ++ rest) = (s.pushAll cs).read rest := by
  simp only [read, run_bracketed hOpen hInner]

theorem read_behind (hOpen : s.bracketed = false) (hPart : s.part.inAuthority = false)
    (hMark : s.part = .path → '?' ∉ cs) (hSign : s.part ≠ .fragment → '#' ∉ cs) :
    s.read (cs ++ rest) = (s.pushAll cs).read rest := by
  induction cs generalizing s with
  | nil => rfl
  | cons c cs ih =>
    simp only [List.mem_cons, not_or] at hMark hSign
    have hStep : s.step c = .ok (s.push c) :=
      step_behind hOpen hPart (fun h => Ne.symm (hMark h).1) fun h => Ne.symm (hSign h).1
    rw [List.cons_append, read_cons hStep, pushAll_cons]
    · exact ih hOpen hPart (fun h => (hMark h).2) fun h => (hSign h).2
    · rintro rfl
      refine .inr (.inl ?_)
      cases hWhich : s.part <;> simp [hWhich, Part.inAuthority, Part.mayBeHost] at hPart ⊢

/-- The scan is about to read a name. -/
structure Ready (s : Scan) (url : Url) : Prop where
  mayBeHost : s.part.mayBeHost = true
  segment : s.segment = []
  isOpen : s.bracketed = false
  stored : s.url = url

/-- A name is read whole, and if it is a literal its brackets are closed again. -/
theorem Ready.read_name (h : s.Ready url) (hName : IsName cs) : s.read (cs ++ rest) = (s.pushAll cs).read rest := by
  cases hName with
  | @plain c cs hFirst hPlain => exact read_plain h.isOpen hPlain fun _ _ => by simpa using hFirst
  | @literal inner tail hInner hPlain =>
    obtain ⟨part, segment, bracketed, stored⟩ := s
    obtain ⟨hPart, rfl, rfl, rfl⟩ := h
    have hOpening : step ⟨part, [], false, stored⟩ '[' = .ok ⟨part, ['['], true, stored⟩ := by
      simp [step, push, hPart]
    have hClosing : step (pushAll ⟨part, ['['], true, stored⟩ inner) ']' =
        .ok ⟨part, ']' :: (inner.reverse ++ ['[']), false, stored⟩ := rfl
    rw [List.cons_append, read_cons hOpening (by simp), List.append_assoc, read_bracketed rfl hInner, List.cons_append,
      read_cons hClosing (by simp), read_plain rfl hPlain (by simp)]
    simp [pushAll]

/-! ## In front of the path -/

/-- A host, or a port behind one, has been read; with it the scan has these parts. -/
structure Closes (s : Scan) (url : Url) : Prop where
  inAuthority : s.part.inAuthority = true
  segment : s.segment ≠ []
  isOpen : s.bracketed = false
  close : s.closeAuthority = .ok url

theorem text?_pushAll (h : s.segment = []) (hSome : cs ≠ []) : (s.pushAll cs).text? = .ok (String.ofList cs) :=
  text?_eq_ok_iff.mpr ⟨by simpa [pushAll, h] using hSome, text_pushAll h⟩

theorem not_isPrefix_slashes (hPlain : IsPlain cs) (hSome : cs ≠ []) : ¬['/', '/'] <+: cs ++ rest := by
  obtain ⟨c, cs, rfl⟩ := List.exists_cons_of_ne_nil hSome
  intro hSlashes
  obtain ⟨rfl, -⟩ := List.cons_prefix_cons.mp hSlashes
  exact hPlain '/' (by simp) (by simp [delimiters])

/-- The scheme, if there is one, stands first. -/
theorem exists_read_scheme {scheme : String} (h : scheme = "" ∨ IsName scheme.toList) :
    ∃ s : Scan, s.Ready { scheme } ∧ ∀ rest,
      read {} ((if scheme.isEmpty then "" else scheme ++ "://").toList ++ rest) = s.read rest := by
  have hStart : Ready {} {} := ⟨rfl, rfl, rfl, rfl⟩
  rcases h with rfl | hName
  · exact ⟨{}, hStart, fun rest => by simp⟩
  · have hSome := ne_empty_of_isName hName
    have hClose : (pushAll {} scheme.toList).closeScheme = .ok ⟨.host, [], false, { scheme }⟩ := by
      unfold closeScheme
      rw [if_pos ⟨rfl, by simpa [pushAll] using hName.ne_nil⟩, text_pushAll rfl, String.ofList_toList]
      rfl
    refine ⟨⟨.host, [], false, { scheme }⟩, ⟨rfl, rfl, rfl, rfl⟩, fun rest => ?_⟩
    have hChars : (if scheme.isEmpty then "" else scheme ++ "://").toList = scheme.toList ++ [':', '/', '/'] := by
      simp [hSome]
    rw [hChars, List.append_assoc, hStart.read_name hName]
    exact read_scheme rfl rfl hClose

theorem Ready.atSign (h : s.Ready url) (hName : IsName cs) :
    (s.pushAll cs).step '@' = .ok ⟨.host, [], false, { url with username := String.ofList cs }⟩ := by
  have hStep : (s.pushAll cs).step '@' = (s.pushAll cs).atSign := by simp [step, pushAll, h.isOpen]
  rw [hStep, atSign_of_mayBeHost (s := s.pushAll cs) h.mayBeHost, text?_pushAll h.segment hName.ne_nil]
  simp [pushAll, enter, h.isOpen, h.stored, bind, Except.bind]

theorem Ready.colon (h : s.Ready url) (hName : IsName cs) :
    (s.pushAll cs).step ':' = .ok ⟨.port, [], false, { url with host := String.ofList cs }⟩ := by
  have hStep : (s.pushAll cs).step ':' = (s.pushAll cs).colon := by simp [step, pushAll, h.isOpen]
  rw [hStep, colon_of_mayBeHost (s := s.pushAll cs) h.mayBeHost, text?_pushAll h.segment hName.ne_nil]
  simp [pushAll, enter, h.isOpen, h.stored, bind, Except.bind]

theorem atSign_of_port (stored : Url) (hSome : cs ≠ []) :
    (pushAll ⟨.port, [], false, stored⟩ cs).step '@' =
      .ok ⟨.host, [], false,
        { stored with password := String.ofList cs, username := stored.host, host := "" }⟩ := by
  have hText : text? (pushAll ⟨.port, [], false, stored⟩ cs) = .ok (String.ofList cs) := text?_pushAll rfl hSome
  simp only [pushAll, List.append_nil] at hText ⊢
  simp [step, Scan.atSign, hText, enter, bind, Except.bind]

/-- The user and the password, if they are there, stand in front of the host. -/
theorem exists_read_userInfo (h : u.Printable) (hReady : s.Ready { scheme := u.scheme }) :
    ∃ s' : Scan, s'.Ready { scheme := u.scheme, username := u.username, password := u.password } ∧
      ∀ rest, s.read (u.userInfo.toList ++ rest) = s'.read rest := by
  rcases h.username with hNone | hName
  · have hNoPassword : u.password = "" := h.password.resolve_right fun hPassword => hPassword.1 hNone
    rw [hNone, hNoPassword]
    exact ⟨s, hReady, fun rest => by simp [userInfo, hNone]⟩
  have hUser := ne_empty_of_isName hName
  refine ⟨⟨.host, [], false, { scheme := u.scheme, username := u.username, password := u.password }⟩,
    ⟨rfl, rfl, rfl, rfl⟩, fun rest => ?_⟩
  by_cases hNone : u.password = ""
  · have hChars : u.userInfo.toList = u.username.toList ++ ['@'] := by simp [userInfo, hUser, hNone]
    have hAt := hReady.atSign hName
    rw [String.ofList_toList] at hAt
    rw [hChars, List.append_assoc, hReady.read_name hName, hNone]
    exact read_cons hAt (by simp)
  · have hChars : u.userInfo.toList = u.username.toList ++ ([':'] ++ (u.password.toList ++ ['@'])) := by
      simp [userInfo, hUser, hNone]
    obtain ⟨-, hPlain⟩ := h.password.resolve_left hNone
    have hSome : u.password.toList ≠ [] := by simpa using hNone
    -- What is read as a host and its port turns out to be the user and the password.
    have hColon := hReady.colon hName
    have hAt := atSign_of_port { scheme := u.scheme, host := u.username } hSome
    rw [String.ofList_toList] at hColon hAt
    simp only [hChars, List.append_assoc]
    rw [hReady.read_name hName, List.singleton_append,
      read_cons hColon fun _ => .inr (.inr (not_isPrefix_slashes hPlain hSome)),
      read_plain rfl hPlain (by simp [Part.mayBeHost])]
    exact read_cons hAt (by simp)

theorem isPlain_of_isDigit (h : ∀ c ∈ cs, c.isDigit = true) : IsPlain cs := by
  intro c hc hMem
  have hDelimiters : delimiters.all (!·.isDigit) = true := by decide
  have hOther := List.all_eq_true.mp hDelimiters c hMem
  simp [h c hc] at hOther

theorem isPlain_decimal (n : Nat) : IsPlain (decimal n) :=
  isPlain_of_isDigit fun _ hc => isDigit_of_mem_decimal hc

/-- A colon behind a name opens a port. -/
theorem Ready.read_withPort (h : s.Ready url) (hName : IsName cs) {port : List Char} (hPort : IsPlain port)
    (hAlone : ¬['/', '/'] <+: port ++ rest) :
    s.read (cs ++ ':' :: (port ++ rest)) =
      (pushAll ⟨.port, [], false, { url with host := String.ofList cs }⟩ port).read rest := by
  rw [h.read_name hName, read_cons (h.colon hName) fun _ => .inr (.inr hAlone),
    read_plain rfl hPort (by simp [Part.mayBeHost])]

theorem closeAuthority_port {port : List Char} (hSome : port ≠ []) :
    (pushAll ⟨.port, [], false, url⟩ port).closeAuthority =
      match readDecimal? 65535 port with
      | some n => .ok { url with port := n.toUInt16 }
      | none => .error (.invalidPort (String.ofList port)) := by
  have hText : text? (pushAll ⟨.port, [], false, url⟩ port) = .ok (String.ofList port) := text?_pushAll rfl hSome
  have hChars : (pushAll ⟨.port, [], false, url⟩ port).segment.reverse = port := by simp [pushAll]
  unfold closeAuthority
  rw [hText, hChars]
  rfl

/-- The host is read, and the port behind it if there is one. -/
theorem exists_read_authority (hReady : s.Ready url) (hPort : url.port = 0) (hName : IsName u.host.toList) :
    ∃ s' : Scan, s'.Closes { url with host := u.host, port := u.port } ∧
      ∀ rest, s.read (u.authority.toList ++ rest) = s'.read rest := by
  by_cases hNone : u.port = 0
  · refine ⟨s.pushAll u.host.toList, ?_, fun rest => ?_⟩
    · have hText := text?_pushAll hReady.segment hName.ne_nil
      obtain ⟨part, segment, bracketed, stored⟩ := s
      obtain ⟨hPart, rfl, rfl, rfl⟩ := hReady
      rw [String.ofList_toList] at hText
      refine ⟨inAuthority_of_mayBeHost hPart, by simpa [pushAll] using hName.ne_nil, rfl, ?_⟩
      unfold Scan.closeAuthority
      rw [hText, hNone, ← hPort]
      cases part with
      | schemeOrHost | host => rfl
      | port | path | query | fragment => simp [Part.mayBeHost] at hPart
    · rw [authority, if_pos hNone, hReady.read_name hName]
  · have hSome : decimal u.port.toNat ≠ [] := Nat.toDigits_ne_nil
    have hPlain := isPlain_decimal u.port.toNat
    have hNumber : readDecimal? 65535 (decimal u.port.toNat) = some u.port.toNat :=
      readDecimal?_decimal (Nat.le_of_lt_succ u.port.toNat_lt)
    refine ⟨pushAll ⟨.port, [], false, { url with host := u.host }⟩ (decimal u.port.toNat),
      ⟨rfl, by simpa [pushAll] using hSome, rfl, ?_⟩, fun rest => ?_⟩
    · rw [closeAuthority_port hSome, hNumber]
      simp
    · have hChars : u.authority.toList = u.host.toList ++ ':' :: decimal u.port.toNat := by simp [authority, hNone]
      rw [hChars, List.append_assoc, List.cons_append,
        hReady.read_withPort hName hPlain (not_isPrefix_slashes hPlain hSome), String.ofList_toList]

/-! ## From the path on -/

/-- The scan has read what stands in front of the query, or the query, and has these parts with it. -/
structure Ends (s : Scan) (url : Url) : Prop where
  isOpen : s.bracketed = false
  finish : s.finish = .ok url
  sign : s.step '#' = .ok (s.enter .fragment url)

theorem Closes.ends (h : s.Closes url) : s.Ends url := by
  have hStep : s.step '#' = s.numberSign := by simp [step, h.isOpen]
  refine ⟨h.isOpen, ?_, ?_⟩
  · obtain ⟨part, segment, bracketed, stored⟩ := s
    obtain ⟨hPart, -, rfl, hClose⟩ := h
    cases part with
    | schemeOrHost | host | port => simpa [Scan.finish] using hClose
    | path | query | fragment => simp [Part.inAuthority] at hPart
  · rw [hStep, numberSign_of_inAuthority h.inAuthority, h.close]
    rfl

theorem Closes.mark (h : s.Closes url) : s.step '?' = .ok (s.enter .query url) := by
  obtain ⟨part, segment, bracketed, stored⟩ := s
  obtain ⟨hPart, -, rfl, hClose⟩ := h
  have hNotPath : part ≠ .path := by
    rintro rfl
    simp [Part.inAuthority] at hPart
  simp [step, Scan.questionMark, hPart, hNotPath, hClose, bind, Except.bind]

theorem Closes.slash (h : s.Closes url) : s.step '/' = .ok ((s.enter .path url).push '/') := by
  obtain ⟨part, segment, bracketed, stored⟩ := s
  obtain ⟨hPart, hSome, rfl, hClose⟩ := h
  have hSegment : segment ≠ [] := hSome
  simp [step, Scan.slash, hPart, hSegment, hClose, bind, Except.bind]

theorem ends_path (hPart : s.part = .path) (hOpen : s.bracketed = false) : s.Ends { s.url with path := s.text } := by
  obtain ⟨part, segment, bracketed, stored⟩ := s
  obtain rfl : part = .path := hPart
  obtain rfl : bracketed = false := hOpen
  exact ⟨rfl, rfl, rfl⟩

theorem mark_of_path (hPart : s.part = .path) (hOpen : s.bracketed = false) :
    s.step '?' = .ok (s.enter .query { s.url with path := s.text }) := by
  obtain ⟨part, segment, bracketed, stored⟩ := s
  obtain rfl : part = .path := hPart
  obtain rfl : bracketed = false := hOpen
  rfl

theorem ends_query (hPart : s.part = .query) (hOpen : s.bracketed = false) :
    s.Ends { s.url with query := s.text } := by
  obtain ⟨part, segment, bracketed, stored⟩ := s
  obtain rfl : part = .query := hPart
  obtain rfl : bracketed = false := hOpen
  exact ⟨rfl, rfl, rfl⟩

theorem finish_fragment (hPart : s.part = .fragment) (hOpen : s.bracketed = false) :
    s.finish = .ok { s.url with fragment := s.text } := by
  obtain ⟨part, segment, bracketed, stored⟩ := s
  obtain rfl : part = .fragment := hPart
  obtain rfl : bracketed = false := hOpen
  rfl

theorem Ends.read_fragment (h : s.Ends url) (hNone : url.fragment = "") (fragment : String) :
    s.read (if fragment.isEmpty then "" else "#" ++ fragment).toList = .ok { url with fragment } := by
  by_cases hEmpty : fragment = ""
  · have hChars : (if fragment.isEmpty then "" else "#" ++ fragment).toList = [] := by simp [hEmpty]
    have hSame : { url with fragment } = url := by rw [hEmpty, ← hNone]
    rw [hChars, hSame]
    exact read_nil.trans h.finish
  · let opened := s.enter .fragment url
    have hChars : (if fragment.isEmpty then "" else "#" ++ fragment).toList = '#' :: (fragment.toList ++ []) := by
      simp [hEmpty]
    have hText : (opened.pushAll fragment.toList).text = fragment := by rw [text_pushAll rfl, String.ofList_toList]
    calc
      s.read (if fragment.isEmpty then "" else "#" ++ fragment).toList
      _ = opened.read (fragment.toList ++ []) := by rw [hChars, read_cons h.sign (by simp)]
      _ = (opened.pushAll fragment.toList).read [] :=
        read_behind h.isOpen rfl (by simp [opened, enter]) (by simp [opened, enter])
      _ = .ok { url with fragment := (opened.pushAll fragment.toList).text } :=
        read_nil.trans (finish_fragment rfl h.isOpen)
      _ = .ok { url with fragment } := by rw [hText]

theorem Ends.read_query (h : s.Ends url) (hMark : s.step '?' = .ok (s.enter .query url)) (hNoQuery : url.query = "")
    (hNone : url.fragment = "") {query : String} (hQuery : '#' ∉ query.toList) (fragment : String) :
    s.read ((if query.isEmpty then "" else "?" ++ query).toList ++
      (if fragment.isEmpty then "" else "#" ++ fragment).toList) = .ok { url with query, fragment } := by
  by_cases hEmpty : query = ""
  · have hChars : (if query.isEmpty then "" else "?" ++ query).toList = [] := by simp [hEmpty]
    have hSame : { url with query, fragment } = { url with fragment } := by rw [hEmpty, ← hNoQuery]
    rw [hChars, hSame]
    exact h.read_fragment hNone fragment
  · let opened := s.enter .query url
    have hChars : (if query.isEmpty then "" else "?" ++ query).toList = '?' :: query.toList := by simp [hEmpty]
    have hText : (opened.pushAll query.toList).text = query := by rw [text_pushAll rfl, String.ofList_toList]
    have hEnds : (opened.pushAll query.toList).Ends { url with query := (opened.pushAll query.toList).text } :=
      ends_query rfl h.isOpen
    rw [hText] at hEnds
    rw [hChars, List.cons_append, read_cons hMark (by simp)]
    calc
      opened.read (query.toList ++ (if fragment.isEmpty then "" else "#" ++ fragment).toList)
      _ = (opened.pushAll query.toList).read (if fragment.isEmpty then "" else "#" ++ fragment).toList :=
        read_behind h.isOpen rfl (by simp [opened, enter]) fun _ => hQuery
      _ = .ok { url with query, fragment } := hEnds.read_fragment hNone fragment

/-- The path is read up to the query, as it does not contain what opens one. -/
theorem read_path (hOpen : s.bracketed = false) (hSlash : s.step '/' = .ok ((s.enter .path url).push '/'))
    (hNoQuery : url.query = "") (hNone : url.fragment = "") {path query : String}
    (hFirst : path.toList.head? = some '/') (hPath : ∀ c ∈ path.toList, c ≠ '?' ∧ c ≠ '#')
    (hQuery : '#' ∉ query.toList) (fragment : String) :
    s.read (path.toList ++ ((if query.isEmpty then "" else "?" ++ query).toList ++
      (if fragment.isEmpty then "" else "#" ++ fragment).toList)) = .ok { url with path, query, fragment } := by
  obtain ⟨cs, hChars⟩ := List.head?_eq_some_iff.mp hFirst
  let opened := (s.enter .path url).push '/'
  have hText : (opened.pushAll cs).text = path := by
    simp [opened, enter, push, pushAll, text, ← hChars]
  have hEnds : (opened.pushAll cs).Ends { url with path := (opened.pushAll cs).text } := ends_path rfl hOpen
  have hMark : (opened.pushAll cs).step '?' =
      .ok ((opened.pushAll cs).enter .query { url with path := (opened.pushAll cs).text }) :=
    mark_of_path rfl hOpen
  rw [hText] at hEnds hMark
  have hRest : ∀ c ∈ cs, c ≠ '?' ∧ c ≠ '#' := fun c hc => hPath c (by simp [hChars, hc])
  rw [hChars, List.cons_append, read_cons hSlash (by simp)]
  calc
    opened.read (cs ++ _)
    _ = (opened.pushAll cs).read _ :=
      read_behind hOpen rfl (fun _ h => (hRest _ h).1 rfl) fun _ h => (hRest _ h).2 rfl
    _ = .ok { url with path, query, fragment } := hEnds.read_query hMark hNoQuery hNone hQuery fragment

end Scan

open Scan

/-! ## The whole target -/

/-- The empty target is no exception, as nothing can be read of it. -/
theorem parse_of_read {raw : String} {url : Url} (h : Scan.read {} raw.toList = .ok url) :
    parse raw = .ok url.decodePath := by
  have hSome : raw ≠ "" := by
    rintro rfl
    have hNothing : Scan.read {} [] = .error .invalidFormat := rfl
    simp [hNothing] at h
  obtain ⟨s, hRun, hFinish⟩ := bind_eq_ok_iff.mp h
  unfold parse
  rw [if_neg (by simpa using hSome), hRun]
  simp only [bind, Except.bind, hFinish]

/-- Any other target is read to its end. -/
theorem read_of_parse {raw : String} {u : Url} (h : parse raw = .ok u) (hSome : raw ≠ "") :
    ∃ url, Scan.read {} raw.toList = .ok url ∧ url.decodePath = u := by
  unfold parse at h
  rw [if_neg (by simpa using hSome)] at h
  obtain ⟨s, hRun, h⟩ := bind_eq_ok_iff.mp h
  obtain ⟨url, hFinish, h⟩ := bind_eq_ok_iff.mp h
  exact ⟨url, bind_eq_ok_iff.mpr ⟨s, hRun, hFinish⟩, Except.ok.inj h⟩

theorem toList_toText (u : Url) :
    u.toText.toList = u.origin.toList ++ ((Percent.encodePath u.path).toList ++
      ((if u.query.isEmpty then "" else "?" ++ u.query).toList ++
        (if u.fragment.isEmpty then "" else "#" ++ u.fragment).toList)) := by
  simp [toText, List.append_assoc]

/-- What stands in front of the path is read as it was written. -/
theorem Printable.exists_read_origin {u : Url} (h : u.Printable) (hHost : u.host ≠ "") :
    ∃ s : Scan, s.Closes { u with path := "", query := "", fragment := "" } ∧
      ∀ rest, Scan.read {} (u.origin.toList ++ rest) = s.read rest := by
  obtain ⟨s₁, hReady₁, hRead₁⟩ := exists_read_scheme h.scheme
  obtain ⟨s₂, hReady₂, hRead₂⟩ := exists_read_userInfo h hReady₁
  obtain ⟨s₃, hCloses, hRead₃⟩ := exists_read_authority hReady₂ rfl (h.host.resolve_left hHost)
  refine ⟨s₃, hCloses, fun rest => ?_⟩
  have hChars : u.origin.toList =
      (if u.scheme.isEmpty then "" else u.scheme ++ "://").toList ++ (u.userInfo.toList ++ u.authority.toList) := by
    simp [Url.origin, hHost]
  rw [hChars, List.append_assoc, hRead₁, List.append_assoc, hRead₂, hRead₃]

theorem Printable.read_toText {u : Url} (h : u.Printable) :
    Scan.read {} u.toText.toList = .ok { u with path := Percent.encodePath u.path } := by
  rw [toList_toText]
  have hPath : ∀ c ∈ (Percent.encodePath u.path).toList, c ≠ '?' ∧ c ≠ '#' :=
    fun c hc => Percent.ne_of_mem_encodePath hc
  by_cases hHost : u.host = ""
  · -- There is a path and nothing in front of it.
    obtain ⟨hScheme, hUser, hPassword, hPort⟩ := h.origin hHost
    have hSlash := Percent.head?_encodePath (h.path.resolve_left (h.anchor hHost))
    have hNothing : u.origin.toList = [] := by simp [Url.origin, hHost]
    have hOpens : Scan.step {} '/' = .ok ((Scan.enter {} .path {}).push '/') := rfl
    have hRead := Scan.read_path rfl hOpens rfl rfl hSlash hPath h.query u.fragment
    rw [hNothing, List.nil_append, hRead, hHost, hScheme, hUser, hPassword, hPort]
  · obtain ⟨s, hCloses, hRead⟩ := h.exists_read_origin hHost
    rw [hRead]
    rcases h.path with hNone | hFirst
    · rw [hNone, Percent.encodePath_empty]
      exact hCloses.ends.read_query hCloses.mark rfl rfl h.query u.fragment
    · have hSlash := Percent.head?_encodePath hFirst
      exact Scan.read_path hCloses.isOpen hCloses.slash rfl rfl hSlash hPath h.query u.fragment

theorem Printable.parse_written {u : Url} (h : u.Printable) : parse u.toText = .ok u := by
  rw [parse_of_read h.read_toText]
  simp [Url.decodePath, Percent.decode?_encodePath]

theorem Printable.parse_authority {u : Url} (h : u.Printable) (hHost : u.host ≠ "") :
    parse u.authority = .ok { host := u.host, port := u.port } := by
  have hStart : Scan.Ready {} {} := ⟨rfl, rfl, rfl, rfl⟩
  obtain ⟨s, hCloses, hRead⟩ := exists_read_authority hStart rfl (h.host.resolve_left hHost)
  have hAuthority : Scan.read {} u.authority.toList = .ok { host := u.host, port := u.port } := by
    rw [← List.append_nil u.authority.toList, hRead]
    exact read_nil.trans hCloses.ends.finish
  rw [parse_of_read hAuthority, decodePath_eq_self rfl]

/-- **Targets are written as they are read.**  A target that was split into parts and is written out again has the same
parts; and if it has a host, this host, with its port, is a target that has these two parts and no other. -/
theorem parse_toText {raw : String} {u : Url} (h : parse raw = .ok u) :
    parse u.toText = .ok u ∧ (u.host ≠ "" → parse u.authority = .ok { host := u.host, port := u.port }) := by
  rcases printable_of_parse h with rfl | hPrintable
  · exact ⟨rfl, by simp⟩
  · exact ⟨hPrintable.parse_written, hPrintable.parse_authority⟩

/-- Two users of which the second one stays, with the password of the first; a literal with separators in it; and a
port, a path and a fragment that are not written as they were. -/
theorem parse_toText_literal :
    let u : Url :=
      { scheme := "s", username := "v", password := "p[w", host := "[x@/]y", port := 80, path := "/a/b?",
        query := "q/?", fragment := "f#" }
    parse "s://[u:]x:p[w@v@[x@/]y:080/a%2fb%3F?q/?#f#" = .ok u ∧ u.toText = "s://v:p[w@[x@/]y:80/a/b%3F?q/?#f#" ∧
      parse u.toText = .ok u ∧ u.host ≠ "" ∧ parse u.authority = .ok { host := "[x@/]y", port := 80 } := by
  intro u
  have hParse : parse "s://[u:]x:p[w@v@[x@/]y:080/a%2fb%3F?q/?#f#" = .ok u := by rfl
  have hHost : u.host ≠ "" := by decide
  obtain ⟨hText, hAuthority⟩ := parse_toText hParse
  exact ⟨hParse, by decide +kernel, hText, hHost, hAuthority hHost⟩

end HttpServer.Url
