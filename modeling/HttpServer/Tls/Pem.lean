import HttpServer.Text.Base64
import HttpServer.Text.Split

/-!
# PEM files

A file is a sequence of labelled sections with text between them that means nothing.  A section begins with a
line that names its label and ends with a line that names it again; between the two stands its content in
Base64.  Sections with an unknown label are passed over.

Reading gives the sections up to the first fault, and says whether there was one: a line that begins a
section without closing its label, a content that is no Base64, or an end that is missing.
-/

namespace HttpServer.Pem

/-- What a section holds. -/
inductive Label where
  | certificate
  | publicKey
  /-- A private key in the form of its own for RSA. -/
  | rsaPrivateKey
  /-- A private key that says of what kind it is. -/
  | privateKey
  /-- A private key in the form of its own for elliptic curves. -/
  | ecPrivateKey
  | revocationList
  | certificateRequest
  | echConfig
  deriving DecidableEq, Repr

namespace Label

/-- All labels that are known. -/
def all : List Label :=
  [.certificate, .publicKey, .rsaPrivateKey, .privateKey, .ecPrivateKey, .revocationList, .certificateRequest,
    .echConfig]

/-- The words of a label. -/
def text : Label → String
  | .certificate => "CERTIFICATE"
  | .publicKey => "PUBLIC KEY"
  | .rsaPrivateKey => "RSA PRIVATE KEY"
  | .privateKey => "PRIVATE KEY"
  | .ecPrivateKey => "EC PRIVATE KEY"
  | .revocationList => "X509 CRL"
  | .certificateRequest => "CERTIFICATE REQUEST"
  | .echConfig => "ECHCONFIG"

/-- The label with these words. -/
def ofText? (words : List Char) : Option Label :=
  all.find? fun label => label.text.toList == words

end Label

/-- A section that was read whole. -/
structure Section where
  label : Label
  content : Bytes
  deriving DecidableEq, Repr

/-- What a line begins with if it begins a section. -/
def beginMark : List Char := "-----BEGIN ".toList

/-- What a line begins with if it ends a section. -/
def endMark : List Char := "-----END ".toList

/-- What closes a label. -/
def dashes : List Char := "-----".toList

/-- The words behind the mark of a section that begins: they are closed by exactly five dashes, among and
behind which spaces do not count. -/
def openedLabel? (rest : List Char) : Option (List Char) :=
  let isTrailing (c : Char) : Bool := c == '-' || c == ' '
  let front := (rest.reverse.dropWhile isTrailing).reverse
  let trailing := (rest.reverse.takeWhile isTrailing).reverse
  if trailing.count '-' = 5 then some (front ++ trailing.takeWhile (· != '-')) else none

/-- Blanks inside the content of a section. -/
def isContentBlank (c : Char) : Bool :=
  c == ' ' || c == '\t'

/-- A file that is being read: the label of the section that is open, and its content so far. -/
structure Reading where
  opened : Option (List Char) := none
  content : List Char := []
  /-- The sections that were read, the latest first. -/
  sections : List Section := []
  malformed : Bool := false
  deriving DecidableEq, Repr

namespace Reading

/-- End the section that is open. -/
def closeSection (words : List Char) (r : Reading) : Reading :=
  match Label.ofText? words with
  | none => { r with opened := none, content := [] }
  | some label =>
    match Base64.decode? (r.content.filter (!isContentBlank ·)) with
    | none => { r with malformed := true }
    | some content =>
      { opened := none, content := [], sections := { label, content } :: r.sections, malformed := false }

/-- Read one line; nothing is read behind a fault. -/
def line (r : Reading) (cs : List Char) : Reading :=
  if r.malformed then r
  else if beginMark.isPrefixOf cs then
    match openedLabel? (cs.drop beginMark.length) with
    | none => { r with malformed := true }
    | some words => { r with opened := some words }
  else
    match r.opened with
    | none => r
    | some words =>
      if (endMark ++ words ++ dashes).isPrefixOf cs then r.closeSection words
      else { r with content := r.content ++ cs }

/-- What was read when the file is over; a section that is still open is a fault. -/
def finish (r : Reading) : List Section × Bool :=
  (r.sections.reverse, r.malformed || r.opened.isSome)

end Reading

/-- The sections of a file up to the first fault, and whether there is one. -/
def parse (text : String) : List Section × Bool :=
  let lines := (splitOn '\n' text.toList).flatMap (splitOn '\r')
  (lines.foldl Reading.line {}).finish

end HttpServer.Pem
