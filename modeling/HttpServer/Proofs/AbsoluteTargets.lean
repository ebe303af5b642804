import HttpServer.Proofs.TargetRoundTrip

/-!
# Targets in absolute form

A target in absolute form is one that has no path, with a target in origin form written behind it.  One scan reads
both, and nothing in it marks where the first ends.  Still it splits into the parts of the first and the parts of the
second (`Url.parse_append_origin`).

What stands in front is left with a host or a port open (`Scan.Closes`), so the slash behind it ends that part and can
not be taken for half of a `://` (`Scan.run_append`).  From there on the scan never looks at what it has stored: it
splits the rest as if nothing stood in front of it (`Scan.read_behind_path`).
-/

namespace HttpServer.Url

/-- The path, the query and the fragment of `v`, with what stands in front of the path in `u`. -/
def withRest (u v : Url) : Url :=
  { u with path := v.path, query := v.query, fragment := v.fragment }

/-- A target that ends in front of its path. -/
def EndsInFront (u : Url) : Prop :=
  u.path = "" ∧ u.query = "" ∧ u.fragment = ""

theorem EndsInFront.withRest_empty {u : Url} (h : u.EndsInFront) : u.withRest {} = u := by
  obtain ⟨scheme, username, password, host, port, path, query, fragment⟩ := u
  obtain ⟨rfl, rfl, rfl⟩ := h
  rfl

namespace Scan

variable {s s' : Scan} {u url : Url} {c : Char} {cs rest : List Char}

/-! ## From the path on -/

/-- The scan with `u` in front of the path. -/
def withFront (s : Scan) (u : Url) : Scan :=
  { s with url := u.withRest s.url }

/-- Behind the host each character is read, whatever stands in front of the path. -/
theorem step_withFront (hOpen : s.bracketed = false) (hPart : s.part.inAuthority = false) (c : Char) (u : Url) :
    ∃ s', s.step c = .ok s' ∧ (s.withFront u).step c = .ok (s'.withFront u) ∧ s'.bracketed = false ∧
      s'.part.inAuthority = false := by
  by_cases hMark : s.part = .path ∧ c = '?'
  · obtain ⟨hPath, rfl⟩ := hMark
    exact ⟨_, mark_of_path hPath hOpen, mark_of_path (s := s.withFront u) hPath hOpen, hOpen, rfl⟩
  by_cases hSign : s.part ≠ .fragment ∧ c = '#'
  · obtain ⟨hPart', rfl⟩ := hSign
    cases hWhich : s.part with
    | schemeOrHost | host | port => simp [hWhich, Part.inAuthority] at hPart
    | path =>
      exact ⟨_, (ends_path hWhich hOpen).sign, (ends_path (s := s.withFront u) hWhich hOpen).sign, hOpen, rfl⟩
    | query =>
      exact ⟨_, (ends_query hWhich hOpen).sign, (ends_query (s := s.withFront u) hWhich hOpen).sign, hOpen, rfl⟩
    | fragment => exact absurd hWhich hPart'
  · have hStep : ∀ s : Scan, s.bracketed = false → s.part.inAuthority = false → (s.part = .path → c ≠ '?') →
        (s.part ≠ .fragment → c ≠ '#') → s.step c = .ok (s.push c) := fun s => step_behind
    have hPath : s.part = .path → c ≠ '?' := fun h hc => hMark ⟨h, hc⟩
    have hOther : s.part ≠ .fragment → c ≠ '#' := fun h hc => hSign ⟨h, hc⟩
    exact ⟨s.push c, hStep s hOpen hPart hPath hOther, hStep (s.withFront u) hOpen hPart hPath hOther, hOpen, hPart⟩

/-- From the path on any text can be read, and it is read as if nothing stood in front. -/
theorem read_behind_path (hOpen : s.bracketed = false) (hPart : s.part.inAuthority = false) (cs : List Char)
    (u : Url) : ∃ v, s.read cs = .ok v ∧ (s.withFront u).read cs = .ok (u.withRest v) := by
  induction cs generalizing s with
  | nil =>
    simp only [read_nil]
    cases hWhich : s.part with
    | schemeOrHost | host | port => simp [hWhich, Part.inAuthority] at hPart
    | path => exact ⟨_, (ends_path hWhich hOpen).finish, (ends_path (s := s.withFront u) hWhich hOpen).finish⟩
    | query => exact ⟨_, (ends_query hWhich hOpen).finish, (ends_query (s := s.withFront u) hWhich hOpen).finish⟩
    | fragment => exact ⟨_, finish_fragment hWhich hOpen, finish_fragment (s := s.withFront u) hWhich hOpen⟩
  | cons c cs ih =>
    obtain ⟨s', hStep, hStep', hOpen', hPart'⟩ := step_withFront hOpen hPart c u
    have hNoHost : s.part.mayBeHost = false := by
      cases hWhich : s.part <;> simp [hWhich, Part.inAuthority, Part.mayBeHost] at hPart ⊢
    rw [read_cons hStep fun _ => .inr (.inl hNoHost), read_cons hStep' fun _ => .inr (.inl hNoHost)]
    exact ih hOpen' hPart'

/-! ## In front of the path -/

/-- A text can be cut in front of a slash if what stands there leaves something in the part that is open: then no colon
waits for the slash. -/
def CutsBefore (s : Scan) (cs rest : List Char) : Prop :=
  rest.head? = some '/' → ∃ s', s.run cs = .ok s' ∧ s'.segment ≠ []

theorem prefix_slashes_append (hNone : ¬['/', '/'] <+: cs) (hSlashes : ['/', '/'] <+: cs ++ rest) :
    rest.head? = some '/' ∧ (cs = [] ∨ cs = ['/']) := by
  match cs with
  | [] =>
    obtain ⟨more, rfl⟩ := hSlashes
    simp
  | [c] =>
    obtain ⟨more, hChars⟩ := hSlashes
    simp only [List.cons_append, List.nil_append, List.cons.injEq] at hChars
    simp [← hChars.1, ← hChars.2]
  | c :: d :: cs =>
    simp only [List.cons_append, List.cons_prefix_cons, List.nil_prefix, and_true] at hNone hSlashes
    exact absurd hSlashes hNone

/-- A colon that is read on its own still is with more text behind it: two slashes that come only then would have left
an empty port, or were refused. -/
theorem CutsBefore.alone (h : s.CutsBefore (c :: cs) rest)
    (hAlone : c = ':' → s.bracketed = true ∨ s.part.mayBeHost = false ∨ ¬['/', '/'] <+: cs) :
    c = ':' → s.bracketed = true ∨ s.part.mayBeHost = false ∨ ¬['/', '/'] <+: cs ++ rest := by
  rintro rfl
  rcases hAlone rfl with hOpen | hHost | hNone
  · exact .inl hOpen
  · exact .inr (.inl hHost)
  cases hOpen : s.bracketed with
  | true => exact .inl rfl
  | false =>
  cases hHost : s.part.mayBeHost with
  | false => exact .inr (.inl rfl)
  | true =>
  refine .inr (.inr fun hSlashes => ?_)
  obtain ⟨hHead, hShort⟩ := prefix_slashes_append hNone hSlashes
  obtain ⟨s', hRun, hSome⟩ := h hHead
  have hColon : s.step ':' = s.colon := by simp [step, hOpen]
  rw [run_cons fun _ => .inr (.inr hNone), hColon, colon_of_mayBeHost hHost] at hRun
  obtain ⟨opened, hStep, hRun⟩ := bind_eq_ok_iff.mp hRun
  obtain ⟨host, -, hStep⟩ := bind_eq_ok_iff.mp hStep
  obtain rfl := Except.ok.inj hStep
  rcases hShort with rfl | rfl
  · rw [run] at hRun
    obtain rfl := Except.ok.inj hRun
    exact hSome rfl
  · rw [run_cons (by simp)] at hRun
    obtain ⟨_, hStep, -⟩ := bind_eq_ok_iff.mp hRun
    simp [step, enter, hOpen, slash, Part.inAuthority, closeAuthority, text?, bind, Except.bind] at hStep

theorem run_cons_append (h : s.CutsBefore (c :: cs) rest)
    (hAlone : c = ':' → s.bracketed = true ∨ s.part.mayBeHost = false ∨ ¬['/', '/'] <+: cs)
    (hRest : ∀ s₁ : Scan, s₁.CutsBefore cs rest → s₁.run (cs ++ rest) = s₁.run cs >>= fun s' => s'.run rest) :
    s.run (c :: cs ++ rest) = s.run (c :: cs) >>= fun s' => s'.run rest := by
  rw [List.cons_append, run_cons (h.alone hAlone)]
  simp only [CutsBefore, run_cons hAlone] at h ⊢
  cases hStep : s.step c with
  | error e => rfl
  | ok s₁ =>
    rw [hStep] at h
    exact hRest s₁ h

/-- A text that can be cut is read piece by piece.  The induction is on the characters of the first piece; three of them
end a scheme together. -/
theorem run_append (h : s.CutsBefore cs rest) : s.run (cs ++ rest) = s.run cs >>= fun s' => s'.run rest := by
  fun_induction Scan.run s cs with
  | case1 s => rfl
  | case2 s cs hScheme ih =>
    simp only [Bool.and_eq_true, Bool.not_eq_true'] at hScheme
    obtain ⟨hOpen, hHost⟩ := hScheme
    simp only [CutsBefore, List.cons_append, run_scheme hOpen hHost] at h ⊢
    cases hStep : s.closeScheme with
    | error e => rfl
    | ok s₁ =>
      rw [hStep] at h
      exact ih s₁ h
  | case3 s cs hNoScheme ih =>
    have hAlone : s.bracketed = true ∨ s.part.mayBeHost = false := by
      rw [Bool.and_eq_true, Bool.not_eq_true', not_and, Bool.not_eq_true] at hNoScheme
      exact (Bool.eq_false_or_eq_true s.bracketed).imp_right hNoScheme
    have hRun := run_cons_append h (fun _ => hAlone.imp_right .inl) ih
    rwa [run_cons fun _ => hAlone.imp_right .inl] at hRun
  | case4 s c cs hOther ih =>
    have hAlone : c = ':' → ¬['/', '/'] <+: cs := by
      rintro hColon ⟨more, hChars⟩
      exact hOther more hColon hChars.symm
    have hRun := run_cons_append h (fun hColon => .inr (.inr (hAlone hColon))) ih
    rwa [run_cons fun hColon => .inr (.inr (hAlone hColon))] at hRun

/-! ### No path is opened -/

/-- In front of the path a colon or an at sign only goes from one part to another that stands there too. -/
theorem inAuthority_of_colon (hPart : s.part.inAuthority = true) (hStep : s.colon = .ok s') :
    s'.part.inAuthority = true := by
  cases hWhich : s.part with
  | schemeOrHost | host =>
    rw [colon_of_mayBeHost (by simp [hWhich, Part.mayBeHost])] at hStep
    obtain ⟨host, -, hStep⟩ := bind_eq_ok_iff.mp hStep
    obtain rfl := Except.ok.inj hStep
    rfl
  | port => simp [Scan.colon, hWhich] at hStep
  | path | query | fragment => simp [hWhich, Part.inAuthority] at hPart

theorem inAuthority_of_atSign (hPart : s.part.inAuthority = true) (hStep : s.atSign = .ok s') :
    s'.part.inAuthority = true := by
  cases hWhich : s.part with
  | schemeOrHost | host =>
    rw [atSign_of_mayBeHost (by simp [hWhich, Part.mayBeHost])] at hStep
    obtain ⟨username, -, hStep⟩ := bind_eq_ok_iff.mp hStep
    obtain rfl := Except.ok.inj hStep
    rfl
  | port =>
    simp only [Scan.atSign, hWhich] at hStep
    obtain ⟨password, -, hStep⟩ := bind_eq_ok_iff.mp hStep
    obtain rfl := Except.ok.inj hStep
    rfl
  | path | query | fragment => simp [hWhich, Part.inAuthority] at hPart

theorem inAuthority_of_step (hPart : s.part.inAuthority = true)
    (hc : s.bracketed = true ∨ c ≠ '/' ∧ c ≠ '?' ∧ c ≠ '#') (hStep : s.step c = .ok s') :
    s'.part.inAuthority = true := by
  unfold step at hStep
  split at hStep
  · obtain rfl := Except.ok.inj hStep
    exact hPart
  rename_i hOpen
  obtain ⟨hSlash, hMark, hSign⟩ := hc.resolve_left hOpen
  split at hStep
  · obtain rfl := Except.ok.inj hStep
    exact hPart
  · exact inAuthority_of_colon hPart hStep
  · exact inAuthority_of_atSign hPart hStep
  · exact absurd rfl hSlash
  · exact absurd rfl hMark
  · exact absurd rfl hSign
  · obtain rfl := Except.ok.inj hStep
    exact hPart

/-- A text without the signs that open a path, a query or a fragment opens none. -/
theorem inAuthority_of_run (hPart : s.part.inAuthority = true) (hSlash : '/' ∉ cs) (hMark : '?' ∉ cs)
    (hSign : '#' ∉ cs) (hRun : s.run cs = .ok s') : s'.part.inAuthority = true := by
  induction cs generalizing s with
  | nil =>
    rw [run] at hRun
    obtain rfl := Except.ok.inj hRun
    exact hPart
  | cons c cs ih =>
    simp only [List.mem_cons, not_or] at hSlash hMark hSign
    have hSlashes : ¬['/', '/'] <+: cs := by
      rintro ⟨more, rfl⟩
      simp at hSlash
    rw [run_cons fun _ => .inr (.inr hSlashes)] at hRun
    obtain ⟨s₁, hStep, hRun⟩ := bind_eq_ok_iff.mp hRun
    have hPart₁ := inAuthority_of_step hPart (.inr ⟨Ne.symm hSlash.1, Ne.symm hMark.1, Ne.symm hSign.1⟩) hStep
    exact ih hPart₁ hSlash.2 hMark.2 hSign.2 hRun

/-- The slashes of one `://` open no path either: they end a scheme, or they stand in brackets. -/
theorem inAuthority_of_run_scheme (hPart : s.part.inAuthority = true) (hSlash : '/' ∉ cs) (hMark : '?' ∉ cs)
    (hSign : '#' ∉ cs) (hRun : s.run (':' :: '/' :: '/' :: cs) = .ok s') : s'.part.inAuthority = true := by
  cases hOpen : s.bracketed with
  | true =>
    have hInner : ']' ∉ [':', '/', '/'] := by decide
    have hRead : s.run ([':', '/', '/'] ++ cs) = (s.pushAll [':', '/', '/']).run cs := run_bracketed hOpen hInner
    rw [List.cons_append, List.cons_append, List.cons_append, List.nil_append, hRun] at hRead
    exact inAuthority_of_run (s := s.pushAll [':', '/', '/']) hPart hSlash hMark hSign hRead.symm
  | false =>
    cases hWhich : s.part with
    | schemeOrHost | host =>
      rw [run_scheme hOpen (by simp [hWhich, Part.mayBeHost])] at hRun
      obtain ⟨s₁, hClose, hRun⟩ := bind_eq_ok_iff.mp hRun
      refine inAuthority_of_run ?_ hSlash hMark hSign hRun
      unfold closeScheme at hClose
      split at hClose
      · obtain rfl := Except.ok.inj hClose
        rfl
      · contradiction
    | port =>
      rw [run_cons fun _ => .inr (.inl (by simp [hWhich, Part.mayBeHost]))] at hRun
      obtain ⟨s₁, hStep, -⟩ := bind_eq_ok_iff.mp hRun
      simp [step, hOpen, Scan.colon, hWhich] at hStep
    | path | query | fragment => simp [hWhich, Part.inAuthority] at hPart

/-- What is read in front of a path, to its end. -/
theorem closes_of_finish (hPart : s.part.inAuthority = true) (hFinish : s.finish = .ok url) : s.Closes url := by
  cases hOpen : s.bracketed with
  | true => simp [Scan.finish, hOpen] at hFinish
  | false =>
    have hClose : s.closeAuthority = .ok url := by
      unfold Scan.finish at hFinish
      rw [if_neg (by simp [hOpen])] at hFinish
      cases hWhich : s.part with
      | schemeOrHost | host | port => simpa [hWhich] using hFinish
      | path | query | fragment => simp [hWhich, Part.inAuthority] at hPart
    have hText := hClose
    unfold closeAuthority at hText
    obtain ⟨text, hText, -⟩ := bind_eq_ok_iff.mp hText
    exact ⟨hPart, (text?_eq_ok_iff.mp hText).1, hOpen, hClose⟩

/-- In front of the path nothing has been stored of what comes behind it. -/
theorem Reading.endsInFront (h : Reading s) (hPart : s.part.inAuthority = true) : s.url.EndsInFront := by
  cases h with
  | schemeOrHost => exact ⟨rfl, rfl, rfl⟩
  | host hFront =>
    obtain ⟨-, -, hRest⟩ := hFront.rest
    exact hRest
  | port hFront =>
    obtain ⟨-, -, hRest⟩ := hFront.rest
    exact hRest
  | path | query | fragment => simp [Part.inAuthority] at hPart

/-- A host or a port is stored beside what is there. -/
theorem endsInFront_of_closeAuthority (h : s.url.EndsInFront) (hClose : s.closeAuthority = .ok url) :
    url.EndsInFront := by
  unfold closeAuthority at hClose
  obtain ⟨text, -, hClose⟩ := bind_eq_ok_iff.mp hClose
  split at hClose
  · split at hClose
    · obtain rfl := Except.ok.inj hClose
      exact h
    · contradiction
  · obtain rfl := Except.ok.inj hClose
    exact h

end Scan

open Scan

/-- The characters of a target that has no path: no slash but those of one `://` at most. -/
def IsPathless (cs : List Char) : Prop :=
  '/' ∉ cs ∨ ∃ scheme rest, cs = scheme ++ ':' :: '/' :: '/' :: rest ∧ '/' ∉ scheme ∧ '/' ∉ rest

/-- A target without path, query and fragment is read up to its host or port. -/
theorem inAuthority_of_isPathless {cs : List Char} {s : Scan} (hPathless : IsPathless cs) (hMark : '?' ∉ cs)
    (hSign : '#' ∉ cs) (hRun : Scan.run {} cs = .ok s) : s.part.inAuthority = true := by
  rcases hPathless with hSlash | ⟨scheme, rest, rfl, hScheme, hRest⟩
  · exact inAuthority_of_run rfl hSlash hMark hSign hRun
  · simp only [List.mem_append, List.mem_cons, not_or] at hMark hSign
    rw [run_append (by simp [CutsBefore])] at hRun
    obtain ⟨s₁, hFront, hBehind⟩ := bind_eq_ok_iff.mp hRun
    have hPart := inAuthority_of_run rfl hScheme hMark.1 hSign.1 hFront
    exact inAuthority_of_run_scheme hPart hRest hMark.2.2.2.2 hSign.2.2.2.2 hBehind

/-- **Absolute and origin form split alike.**  Let a target without path, query and fragment be split.  Then whatever
begins with a slash is a target in origin form, which has nothing in front of its path; and behind the first target it
gives it this path, query and fragment, and leaves everything in front of them as it was. -/
theorem parse_append_origin {front back : String} {u : Url} (hFront : parse front = .ok u) (hSome : front ≠ "")
    (hPathless : IsPathless front.toList) (hMark : '?' ∉ front.toList) (hSign : '#' ∉ front.toList)
    (hBack : back.toList.head? = some '/') :
    ∃ path query fragment, parse back = .ok { path, query, fragment } ∧
      parse (front ++ back) = .ok { u with path, query, fragment } := by
  obtain ⟨cs, hChars⟩ := List.head?_eq_some_iff.mp hBack
  -- The first target leaves a host or a port open; with it the scan has the parts of the target.
  obtain ⟨url, hRead, hDecode⟩ := read_of_parse hFront hSome
  obtain ⟨s, hRun, hFinish⟩ := bind_eq_ok_iff.mp hRead
  have hPart := inAuthority_of_isPathless hPathless hMark hSign hRun
  have hCloses := closes_of_finish hPart hFinish
  have hStart : Reading {} := .schemeOrHost .nothing
  have hUrl : url.EndsInFront := endsInFront_of_closeAuthority ((hStart.run hRun).endsInFront hPart) hCloses.close
  obtain rfl : url = u := (decodePath_eq_self hUrl.1).symm.trans hDecode
  -- Behind it the path is opened as it is at the beginning of a target.
  let opened : Scan := (Scan.enter {} .path {}).push '/'
  have hOrigin : Scan.read {} back.toList = opened.read cs := by
    rw [hChars]
    exact read_cons rfl (by simp)
  have hAbsolute : Scan.read {} (front ++ back).toList = (opened.withFront url).read cs := by
    have hCut : CutsBefore {} front.toList ('/' :: cs) := fun _ => ⟨s, hRun, hCloses.segment⟩
    have hOpened : (s.enter .path url).push '/' = opened.withFront url := by
      simp only [opened, withFront, enter, push, hCloses.isOpen, hUrl.withRest_empty]
    rw [String.toList_append, hChars]
    simp only [Scan.read, run_append hCut, hRun]
    exact (read_cons hCloses.slash (by simp)).trans (congrArg (Scan.read · cs) hOpened)
  obtain ⟨v, hRest, hBehind⟩ := read_behind_path (s := opened) rfl rfl cs url
  obtain ⟨w, -, hAlone⟩ := read_behind_path (s := opened) rfl rfl cs {}
  -- With nothing in front of it the scan is what it was, so nothing is in front of what it reads.
  have hNothing : v = withRest {} w := Except.ok.inj (hRest.symm.trans hAlone)
  refine ⟨v.decodePath.path, v.query, v.fragment, ?_, parse_of_read (hAbsolute.trans hBehind)⟩
  rw [parse_of_read (hOrigin.trans hRest), hNothing]
  rfl

/-- A user with a password, brackets with an at sign in them, and a port; behind them a path that begins with two
slashes and holds separators. -/
theorem parse_append_origin_literal :
    let u : Url := { scheme := "s", username := "u", password := "p", host := "[:@]", port := 80 }
    parse "s://u:p@[:@]:80" = .ok u ∧ IsPathless "s://u:p@[:@]:80".toList ∧
      parse "//a%20b:@?x=/#y?" = .ok { path := "//a b:@", query := "x=/", fragment := "y?" } ∧
      parse ("s://u:p@[:@]:80" ++ "//a%20b:@?x=/#y?") =
        .ok { u with path := "//a b:@", query := "x=/", fragment := "y?" } := by
  intro u
  have hFront : parse "s://u:p@[:@]:80" = .ok u := by rfl
  have hPathless : IsPathless "s://u:p@[:@]:80".toList :=
    .inr ⟨['s'], "u:p@[:@]:80".toList, by decide, by decide, by decide⟩
  have hBack : parse "//a%20b:@?x=/#y?" = .ok { path := "//a b:@", query := "x=/", fragment := "y?" } := by rfl
  have hSlash : "//a%20b:@?x=/#y?".toList.head? = some '/' := by decide
  obtain ⟨path, query, fragment, hOrigin, hAbsolute⟩ :=
    parse_append_origin hFront (by decide) hPathless (by decide) (by decide) hSlash
  obtain ⟨rfl, rfl, rfl⟩ : path = "//a b:@" ∧ query = "x=/" ∧ fragment = "y?" := by
    simpa using hOrigin.symm.trans hBack
  exact ⟨hFront, hPathless, hBack, hAbsolute⟩

end HttpServer.Url
