import HttpServer.Proofs.Framing
import HttpServer.Proofs.HeadlineForm

/-!
# Why a request cannot be read, and what one that was read speaks

A reader of requests fails for one of four kinds of reasons: the head is malformed, a part of it is too long, it asks
for something that is not there, or the stream has failed.  Only the last kind leaves nothing to tell the peer
(`canned_of_isReadFailure`).

A request that was read speaks version 1 of the protocol, or it is the preface with which a client of version 2 opens
its connection (`speaks_of_readRequest`).
-/

namespace HttpServer

/-- The errors that reading a request can end with. -/
def Error.isReadFailure : Error → Bool
  | .parse _ | .limitExceeded _ | .unsupported _ | .network _ => true
  | .handlerFault _ | .upgrade _ | .invalidHeader _ | .url _ | .tls _ | .serverClosed => false

/-- When reading fails, the peer is told why, unless the stream is what failed. -/
theorem Error.canned_of_isReadFailure {e : Error} (h : e.isReadFailure = true) :
    (∃ cause, e = .network cause ∧ e.cannedResponse? = none) ∨
      ∃ canned, e.cannedResponse? = some canned ∧ ∀ cause, e ≠ .network cause := by
  cases e with
  | parse e => exact .inr ⟨_, rfl, by simp⟩
  | limitExceeded limit => exact .inr ⟨_, rfl, by simp⟩
  | unsupported feature => exact .inr ⟨_, rfl, by simp⟩
  | network cause => exact .inl ⟨cause, rfl, rfl⟩
  | handlerFault | upgrade | invalidHeader | url | tls | serverClosed => simp [isReadFailure] at h

/-! ## Failures -/

namespace Headline

theorem isReadFailure_of_checkVersion {method : Method} {version : Version} {written : Bytes} {e : Error}
    (h : checkVersion method version written = .error e) : e.isReadFailure = true := by
  unfold checkVersion at h
  split at h
  · split at h <;> cases h
    rfl
  · split at h
    · cases h
    · split at h <;> cases h <;> rfl

theorem isReadFailure_of_parseTarget {target : Bytes} {e : Error} (h : parseTarget target = .error e) :
    e.isReadFailure = true := by
  unfold parseTarget at h
  split at h
  · cases h
    rfl
  · split at h <;> cases h
    rfl

theorem isReadFailure_of_parse {line : Bytes} {e : Error} (h : parse line = .error e) : e.isReadFailure = true := by
  simp only [parse, bind, Except.bind] at h
  cases hWords : splitHeadline line with
  | error cause =>
    simp only [hWords, Except.mapError] at h
    cases h
    rfl
  | ok words =>
    simp only [hWords, Except.mapError] at h
    split at h
    swap
    · cases h
      rfl
    split at h
    swap
    · cases h
      rfl
    split at h
    · rename_i hVersion
      cases h
      exact isReadFailure_of_checkVersion hVersion
    split at h
    · rename_i hTarget
      cases h
      exact isReadFailure_of_parseTarget hTarget
    · cases h

end Headline

theorem HeaderBlock.isReadFailure_of_push {b b' : HeaderBlock} {line : Bytes} {e : Error}
    (h : b.push line = (.error e, b')) : e.isReadFailure = true := by
  rcases (push_error h).2 with rfl | ⟨text, rfl⟩ <;> rfl

namespace Connection

variable {limits : Limits} {c c' : Connection} {e : Error}

theorem isReadFailure_of_readBoundedLine {which : Limit} {limit : Nat}
    (h : c.readBoundedLine which limit = (.error e, c')) : e.isReadFailure = true := by
  unfold readBoundedLine at h
  split at h
  · cases h
    rfl
  · cases h
    rfl
  · simp at h

theorem isReadFailure_of_readHeaderBlock {block : HeaderBlock}
    (h : c.readHeaderBlock limits block = (.error e, c')) : e.isReadFailure = true := by
  fun_induction readHeaderBlock limits block c with
  | case1 block c e' c₁ hLine =>
    cases h
    exact isReadFailure_of_readBoundedLine hLine
  | case2 => simp at h
  | case3 block c b line c₁ hLine e' block₁ hPush =>
    cases h
    exact HeaderBlock.isReadFailure_of_push hPush
  | case4 block c b line c₁ hLine block₁ hPush ih => exact ih h

theorem isReadFailure_of_bodyLength {headers : Headers} (h : bodyLength limits headers = .error e) :
    e.isReadFailure = true := by
  unfold bodyLength at h
  split at h
  · cases h
  split at h
  · cases h
    rfl
  · split at h <;> cases h
    rfl

theorem isReadFailure_of_checkHead {headline : Headline} {headers : Headers}
    (h : checkHead limits headline headers = .error e) : e.isReadFailure = true := by
  simp only [checkHead, bind, Except.bind] at h
  split at h
  · rename_i hEncoding
    cases h
    unfold Headers.checkTransferEncoding at hEncoding
    split at hEncoding <;> cases hEncoding
    rfl
  split at h
  · rename_i hLength
    cases h
    exact isReadFailure_of_bodyLength hLength
  · cases h

theorem isReadFailure_of_readBody {method : Method} {length : Nat}
    (h : c.readBody method length = (.error e, c')) : e.isReadFailure = true := by
  unfold readBody at h
  split at h
  · simp at h
  split at h
  · cases h
    rfl
  · simp at h

/-- Whichever part of a request cannot be read, the reason is one of the four kinds. -/
theorem isReadFailure_of_readRequest (h : c.readRequest limits = (.error e, c')) : e.isReadFailure = true := by
  unfold readRequest at h
  split at h
  · rename_i hLine
    cases h
    exact isReadFailure_of_readBoundedLine hLine
  split at h
  · rename_i hHeadline
    cases h
    exact Headline.isReadFailure_of_parse hHeadline
  split at h
  · rename_i hBlock
    cases h
    exact isReadFailure_of_readHeaderBlock hBlock
  split at h
  · rename_i hHead
    cases h
    exact isReadFailure_of_checkHead hHead
  split at h
  · rename_i hBody
    cases h
    exact isReadFailure_of_readBody hBody
  · simp at h

end Connection

/-! ## What was read -/

namespace Headline

variable {line : Bytes} {headline : Headline}

/-- Method and version of a request line go together. -/
theorem speaks_of_parse (h : parse line = .ok headline) :
    headline.method = .pri ∧ headline.version = .http20 ∨ headline.method ≠ .pri ∧ headline.version.major = 1 := by
  obtain ⟨_, _, _, -, -, -, hChecked, -⟩ := parse_eq_ok_iff.mp h
  exact checkVersion_eq_ok_iff.mp hChecked

theorem url_of_parse (h : parse line = .ok headline) : Url.parse headline.target = .ok headline.url := by
  obtain ⟨_, _, _, -, -, -, -, hTarget⟩ := parse_eq_ok_iff.mp h
  exact (parseTarget_eq_ok_iff.mp hTarget).2

end Headline

/-- A request that was read opens a connection of version 2, or it speaks version 1. -/
theorem Connection.speaks_of_readRequest {limits : Limits} {c c' : Connection} {r : Request}
    (h : c.readRequest limits = (.ok r, c')) :
    r.isHttp2Preface = true ∨ r.method ≠ .pri ∧ r.version.major = 1 := by
  obtain ⟨f, -, -, -, hYields⟩ := takeRequest_eq_ok_iff.mp (readRequest_eq_ok_iff.mp ⟨c', h, rfl⟩)
  refine (Headline.speaks_of_parse hYields.headline).imp_left fun hPreface => ?_
  obtain ⟨hMethod, hVersion⟩ := hPreface
  dsimp only at hMethod hVersion
  simp [Request.isHttp2Preface, hMethod, hVersion]

end HttpServer
