import HttpServer.Headers.Value

/-!
# Media types

A `Content-Type` value is a type and a subtype, followed by parameters.  The reading is all or nothing: a
value that is not of this form is kept whole as the essence, without parameters.
-/

namespace HttpServer

/-- A parsed `Content-Type` value. -/
structure MediaType where
  /-- `type/subtype` in lower case, or the trimmed value when it has another form. -/
  essence : String
  /-- Parameters with names in lower case and values without their quotes; each name once. -/
  params : List (String × String) := []
  deriving DecidableEq, Repr

namespace MediaType

/-- A text with its ASCII letters in lower case. -/
def lower (cs : List Char) : String :=
  String.ofList (cs.map Char.toLower)

/-- A value without the pair of quotes around it; a value that does not both begin and end with a quote
stays as it is. -/
def unquote (cs : List Char) : List Char :=
  match cs with
  | '"' :: rest => if rest.getLast? == some '"' then rest.dropLast else cs
  | _ => cs

/-- The name and value of one parameter; `none` when it has no `=` or its name is no token. -/
def parseParam? (part : List Char) : Option (String × String) := do
  let (key, value) ← cutFirst '=' part
  let key := trim key
  if isToken (String.ofList key) then
    some (lower key, String.ofList (unquote (trim value)))
  else none

/-- Whether a text is a type and a subtype, both tokens. -/
def isEssence (cs : List Char) : Bool :=
  match cutFirst '/' cs with
  | some (type, subtype) => isToken (String.ofList type) && isToken (String.ofList subtype)
  | none => false

/-- The media type of a value that has the form of one.  Blank parameters are skipped; a parameter that
comes twice keeps its last value. -/
def parseStrict? (raw : List Char) : Option MediaType := do
  let (first, rest) := splitParts ';' raw
  let essence := trim first
  if isEssence essence then
    let params ← ((rest.map trim).filter (!·.isEmpty)).mapM parseParam?
    some { essence := lower essence, params := params.foldl (fun ps (k, v) => putPair k v ps) [] }
  else none

/-- The media type of any value. -/
def parse (raw : String) : MediaType :=
  (parseStrict? raw.toList).getD { essence := trimText raw }

/-- The value of a parameter; its name may be given in either letter case. -/
def param? (m : MediaType) (name : String) : Option String :=
  m.params.lookup (lower name.toList)

end MediaType
end HttpServer
