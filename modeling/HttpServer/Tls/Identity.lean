import HttpServer.Error
import HttpServer.Tls.Der
import HttpServer.Tls.Pem

/-!
# Identities — the certificates and the private key of a listener

Certificates and key come from two PEM files.  The certificates are all those of their file, and the key is
the first one of its file, behind which nothing is looked at.  They belong together if the public half of the
key stands in the first certificate.
-/

namespace HttpServer

/-- The form of a private key. -/
inductive KeyForm where
  | pkcs1
  | pkcs8
  | sec1
  deriving DecidableEq, Repr

/-- A private key. -/
structure PrivateKey where
  form : KeyForm
  content : Bytes
  deriving DecidableEq, Repr

/-- The certificates of a file. -/
def certificatesOf (pem : String) : Except TlsError (List Bytes) :=
  let (sections, malformed) := Pem.parse pem
  if malformed then .error .certificatesMalformed
  else
    let certificates := (sections.filter (·.label == .certificate)).map (·.content)
    if certificates.isEmpty then .error .noCertificates else .ok certificates

/-- The private key in a section. -/
def Pem.Section.privateKey? (s : Pem.Section) : Option PrivateKey :=
  match s.label with
  | .rsaPrivateKey => some ⟨.pkcs1, s.content⟩
  | .privateKey => some ⟨.pkcs8, s.content⟩
  | .ecPrivateKey => some ⟨.sec1, s.content⟩
  | _ => none

/-- The first private key of a file. -/
def privateKeyOf (pem : String) : Except TlsError PrivateKey :=
  let (sections, malformed) := Pem.parse pem
  match sections.findSome? Pem.Section.privateKey? with
  | some key => .ok key
  | none => .error (if malformed then .keyMalformed else .noKey)

namespace PrivateKey

/-- The public point inside a private key of an elliptic curve. -/
def publicPoint? (content : Bytes) : Option Bytes := do
  let parts ← Der.sequence? content
  let tagged ← parts.find? (·.tag == Der.partOneTag)
  let (point, rest) ← Der.value? tagged.content
  if point.tag = Der.bitStringTag ∧ rest.isEmpty ∧ point.content.length ≠ 0 then
    some (point.content.drop 1)
  else none

/-- The modulus inside a private key for RSA. -/
def modulus? (content : Bytes) : Option Bytes := do
  let parts ← Der.sequence? content
  match parts with
  | _ :: modulus :: _ => if modulus.tag = Der.integerTag then some modulus.content else none
  | _ => none

/-- The public half of a private key. -/
def publicHalf? (key : PrivateKey) : Option Bytes :=
  match key.form with
  | .sec1 => publicPoint? key.content
  | .pkcs1 => modulus? key.content
  | .pkcs8 => do
    let parts ← Der.sequence? key.content
    let inner ← parts.find? (·.tag == Der.octetStringTag)
    publicPoint? inner.content <|> modulus? inner.content

end PrivateKey

/-- The protocol that every listener speaks. -/
def httpProtocol : String := "http/1.1"

/-- What a TLS listener shows its peers, and the protocols that it speaks, the preferred one first. -/
structure Identity where
  certificates : List Bytes
  key : PrivateKey
  protocols : List String := [httpProtocol]
  deriving DecidableEq, Repr

/-- The identity of two files, if the key belongs to the first certificate. -/
def Identity.ofPem (certificatePem keyPem : String) : Except TlsError Identity := do
  let certificates ← certificatesOf certificatePem
  let key ← privateKeyOf keyPem
  match key.publicHalf?, certificates with
  | some half, leaf :: _ =>
    if occursIn half leaf then return { certificates, key }
    else .error (.reported "keys may not be consistent")
  | _, _ => .error (.reported "failed to parse private key")

end HttpServer
