import HttpServer.Error
import HttpServer.Headers
import HttpServer.Text.Blank
import HttpServer.Text.Line

/-!
# Header blocks — building a store line by line

A header block is fed one line at a time, without line ends.  A line that begins with a space or a tab
continues the field before it.  Fields that could not be stored — a name that is no token, a value with a
control character, `Set-Cookie` from a client — are dropped together with their continuations, and so is a
line that is not UTF-8; only a line that is no field at all is an error.  The block as a whole may not grow
past its size, in which each line counts with two bytes for its end.
-/

namespace HttpServer

/-- A header block of which some lines have been read. -/
structure HeaderBlock where
  headers : Headers := {}
  /-- The field that the next line may continue; none behind a field that was dropped. -/
  openField : Option String := none
  size : Nat := 0
  maxSize : Nat
  deriving DecidableEq, Repr

namespace HeaderBlock

/-- Whether a line continues the field before it. -/
def isContinuation : List Char → Bool
  | c :: _ => c == ' ' || c == '\t'
  | [] => false

/-- Read a line that continues the open field. -/
def continueField (cs : List Char) (b : HeaderBlock) : Except Error Unit × HeaderBlock :=
  match b.openField with
  | none => (.error (.parse (.malformedHeader (String.ofList cs))), b)
  | some name =>
    let extra := String.ofList (trim cs)
    if extra.isEmpty || !isFieldValue extra then (.ok (), b)
    else (.ok (), { b with headers := b.headers.appendFolded name extra })

/-- Whether a client may send a field with this name and value. -/
def isAcceptable (name value : String) : Bool :=
  isToken name && isFieldValue value && canonicalName name != setCookieName

/-- Read a line that begins a field. -/
def startField (cs : List Char) (b : HeaderBlock) : Except Error Unit × HeaderBlock :=
  match cutFirst ':' cs with
  | none => (.error (.parse (.malformedHeader (String.ofList cs))), b)
  | some (name, value) =>
    let name := String.ofList name
    let value := String.ofList (trim value)
    if isAcceptable name value then
      let name := canonicalName name
      (.ok (), { b with headers := b.headers.insert name value, openField := some name })
    else (.ok (), { b with openField := none })

/-- Read one line.  The block that comes with an error has counted the line and is otherwise unchanged. -/
def push (line : Bytes) (b : HeaderBlock) : Except Error Unit × HeaderBlock :=
  let b := { b with size := b.size + (line.length + 2) }
  if b.maxSize < b.size then (.error (.limitExceeded .headerBlock), b)
  else
    match Utf8.decode? line with
    | none => (.ok (), { b with openField := none })
    | some cs => if isContinuation cs then b.continueField cs else b.startField cs

/-- Read lines until one of them is an error. -/
def pushAll (b : HeaderBlock) : List Bytes → Except Error HeaderBlock
  | [] => .ok b
  | line :: lines =>
    match b.push line with
    | (.error e, _) => .error e
    | (.ok (), b) => b.pushAll lines

end HeaderBlock

/-- The fields of a header block in memory, which ends at its first empty line or with its bytes. -/
def parseHeaders (block : Bytes) (maxSize : Nat) : Except Error Headers :=
  (HeaderBlock.pushAll { maxSize } ((linesOf block).takeWhile (!·.isEmpty))).map (·.headers)

end HttpServer
