import HttpServer.Server.Config
import HttpServer.Service.Address
import HttpServer.Tls.Identity
import HttpServer.WebSocket.Dialog

/-!
# The command line

Words are read from left to right, and the first one that is out of place ends the reading; so does a call for
help.  An option with a value has it behind an equals sign, behind its letter, or in the next word, which must
not look like an option itself.  No option may come twice.
-/

namespace HttpServer.CommandLine

/-- What the command line sets. -/
structure Options where
  host : String := "0.0.0.0"
  port : Nat := 3000
  workers : Option Nat := none
  readTimeoutSecs : Option Nat := none
  writeTimeoutSecs : Option Nat := none
  idleTimeoutSecs : Option Nat := none
  tlsCert : Option String := none
  tlsKey : Option String := none
  /-- The `Server` field; an empty text leaves it out. -/
  serverName : String := "tern"
  websocketCompression : Bool := false
  shutdownGraceSecs : Nat := 30
  deriving DecidableEq, Repr

/-- What is wrong with a command line. -/
inductive UsageError where
  | unexpectedArgument (word : String)
  | missingValue (name : String)
  | unexpectedValue (name : String)
  | invalidValue (name value : String)
  | repeatedOption (name : String)
  /-- The first option makes no sense without the second. -/
  | missingOption (name needed : String)
  deriving DecidableEq, Repr

/-- What the error says. -/
def UsageError.message : UsageError → String
  | .unexpectedArgument word => "unexpected argument '" ++ word ++ "' found"
  | .missingValue name => "a value is required for '--" ++ name ++ "' but none was supplied"
  | .unexpectedValue name => "unexpected value for '--" ++ name ++ "' found; no more were expected"
  | .invalidValue name value => "invalid value '" ++ value ++ "' for '--" ++ name ++ "'"
  | .repeatedOption name => "the argument '--" ++ name ++ "' cannot be used multiple times"
  | .missingOption name needed => "the argument '--" ++ name ++ "' requires '--" ++ needed ++ "'"

/-- Why the reading of a command line ended early. -/
inductive Stop where
  | help
  | misuse (e : UsageError)
  deriving DecidableEq, Repr

/-- A whole number, to which a plus sign may be put. -/
def readNumber? (max : Nat) (value : String) : Option Nat :=
  match value.toList with
  | '+' :: digits => readDecimal? max digits
  | digits => readDecimal? max digits

/-- The largest number that an option takes unless it says otherwise. -/
def maxNumber : Nat := UInt64.size - 1

/-- The largest port. -/
def maxPort : Nat := 65535

/-- What an option does. -/
inductive Effect where
  /-- Show the help. -/
  | help
  | flag (set : Options → Options)
  /-- Take a value; `none` refuses it. -/
  | value (set : String → Options → Option Options)

/-- An option: its name, its letter if it has one, and what it does. -/
structure OptionSpec where
  name : String
  letter : Option Char := none
  effect : Effect

/-- An option with a number. -/
def OptionSpec.number (name : String) (max : Nat) (set : Nat → Options → Options)
    (letter : Option Char) : OptionSpec :=
  { name, letter, effect := .value fun v o => (readNumber? max v).map (set · o) }

/-- An option with a text. -/
def OptionSpec.text (name : String) (set : String → Options → Options) : OptionSpec :=
  { name, effect := .value fun v o => some (set v o) }

/-- All options. -/
def specs : List OptionSpec :=
  [.text "host" (fun v o => { o with host := v }),
    .number "port" maxPort (fun n o => { o with port := n }) (some 'p'),
    .number "workers" maxNumber (fun n o => { o with workers := some n }) (some 'w'),
    .number "read-timeout-secs" maxNumber (fun n o => { o with readTimeoutSecs := some n }) none,
    .number "write-timeout-secs" maxNumber (fun n o => { o with writeTimeoutSecs := some n }) none,
    .number "idle-timeout-secs" maxNumber (fun n o => { o with idleTimeoutSecs := some n }) none,
    .text "tls-cert" (fun v o => { o with tlsCert := some v }),
    .text "tls-key" (fun v o => { o with tlsKey := some v }),
    .text "server-name" (fun v o => { o with serverName := v }),
    { name := "websocket-compression", effect := .flag fun o => { o with websocketCompression := true } },
    .number "shutdown-grace-secs" maxNumber (fun n o => { o with shutdownGraceSecs := n }) none,
    { name := "help", letter := some 'h', effect := .help }]

/-- How an option is written in the help. -/
def OptionSpec.usage (spec : OptionSpec) : String :=
  let letter := match spec.letter with
    | some c => "  -" ++ c.toString ++ ", --"
    | none => "      --"
  letter ++ spec.name ++ (match spec.effect with
    | .value _ => " <VALUE>\n"
    | _ => "\n")

/-- The help. -/
def usage : String :=
  "Usage: http-server [OPTIONS]\n\nOptions:\n" ++ String.join (specs.map OptionSpec.usage)

/-- A command line that is being read: what was set, and by which options. -/
structure Reading where
  options : Options := {}
  used : List String := []

/-- Whether a word cannot be the value of the option before it. -/
def looksLikeOption (word : String) : Bool :=
  match word.toList with
  | '-' :: _ :: _ => true
  | _ => false

/-- Apply an option that takes a value. -/
def Reading.setValue (r : Reading) (spec : OptionSpec) (set : String → Options → Option Options)
    (value : String) : Except Stop Reading :=
  if r.used.contains spec.name then .error (.misuse (.repeatedOption spec.name))
  else
    match set value r.options with
    | none => .error (.misuse (.invalidValue spec.name value))
    | some options => .ok { options, used := spec.name :: r.used }

/-- Apply an option to the words behind it; the answer has the words that are left.  An attached value is one
that stands in the same word. -/
def Reading.apply (r : Reading) (spec : OptionSpec) (attached : Option String) (rest : List String) :
    Except Stop (Reading × List String) :=
  match spec.effect, attached with
  | .help, none => .error .help
  | .help, some _ | .flag _, some _ => .error (.misuse (.unexpectedValue spec.name))
  | .flag set, none =>
    if r.used.contains spec.name then .error (.misuse (.repeatedOption spec.name))
    else .ok ({ options := set r.options, used := spec.name :: r.used }, rest)
  | .value set, some v => do
    let r ← r.setValue spec set v
    return (r, rest)
  | .value set, none =>
    match rest with
    | [] => .error (.misuse (.missingValue spec.name))
    | v :: rest =>
      if looksLikeOption v then .error (.misuse (.missingValue spec.name))
      else do
        let r ← r.setValue spec set v
        return (r, rest)

/-- What is attached to a letter: the rest of its word, from which an equals sign is taken off. -/
def attachedTo (rest : List Char) : Option String :=
  match rest with
  | [] => none
  | '=' :: value => some (String.ofList value)
  | value => some (String.ofList value)

/-- Read one word that is an option, and its value. -/
def Reading.word (r : Reading) (word : String) (rest : List String) :
    Except Stop (Reading × List String) :=
  let unexpected : Except Stop (Reading × List String) := .error (.misuse (.unexpectedArgument word))
  match word.toList with
  | '-' :: '-' :: cs =>
    let (name, attached) := match cutFirst '=' cs with
      | some (name, value) => (name, some (String.ofList value))
      | none => (cs, none)
    match specs.find? (·.name == String.ofList name) with
    | some spec => r.apply spec attached rest
    | none => unexpected
  | '-' :: letter :: cs =>
    match specs.find? (·.letter == some letter) with
    | some { effect := .help, .. } => .error .help
    | some spec => r.apply spec (attachedTo cs) rest
    | none => unexpected
  | _ => unexpected

/-- Options take only words that are there. -/
theorem length_of_word {r r' : Reading} {w : String} {rest rest' : List String}
    (h : r.word w rest = .ok (r', rest')) : rest'.length ≤ rest.length := by
  have hApply : ∀ {spec : OptionSpec} {attached : Option String},
      r.apply spec attached rest = .ok (r', rest') → rest'.length ≤ rest.length := by
    intro spec attached hApply
    unfold Reading.apply at hApply
    split at hApply
    · simp at hApply
    · simp at hApply
    · simp at hApply
    · split at hApply
      · simp at hApply
      · simp only [Except.ok.injEq, Prod.mk.injEq] at hApply
        simp [hApply.2]
    · simp only [bind, Except.bind, pure, Except.pure] at hApply
      split at hApply
      · simp at hApply
      · simp only [Except.ok.injEq, Prod.mk.injEq] at hApply
        simp [hApply.2]
    · split at hApply
      · simp at hApply
      · split at hApply
        · simp at hApply
        · simp only [bind, Except.bind, pure, Except.pure] at hApply
          split at hApply
          · simp at hApply
          · simp only [Except.ok.injEq, Prod.mk.injEq] at hApply
            simp [← hApply.2]
  unfold Reading.word at h
  dsimp only at h
  split at h
  · split at h
    · exact hApply h
    · simp at h
  · split at h
    · simp at h
    · exact hApply h
    · simp at h
  · simp at h

/-- Read all words.  Behind a lone double hyphen every word would be an argument, and none is taken. -/
def Reading.words (r : Reading) (words : List String) : Except Stop Reading :=
  match words with
  | [] => .ok r
  | "--" :: rest =>
    match rest with
    | [] => .ok r
    | word :: _ => .error (.misuse (.unexpectedArgument word))
  | word :: rest =>
    match _ : r.word word rest with
    | .error stop => .error stop
    | .ok (r, rest) => r.words rest
termination_by words.length
decreasing_by
  have := length_of_word (by assumption)
  simp only [List.length_cons]
  omega

/-- Read a command line.  A certificate needs a key, and a key needs a certificate. -/
def parse (words : List String) : Except Stop Options := do
  let r ← Reading.words {} words
  match r.options.tlsCert, r.options.tlsKey with
  | some _, none => .error (.misuse (.missingOption "tls-cert" "tls-key"))
  | none, some _ => .error (.misuse (.missingOption "tls-key" "tls-cert"))
  | _, _ => return r.options

/-- Milliseconds in a second. -/
def msPerSec : Nat := 1000

/-- The settings of the server. -/
def Options.serverConfig (o : Options) : ServerConfig :=
  { serverName := if o.serverName.isEmpty then none else some o.serverName
    readTimeout := o.readTimeoutSecs.map (· * msPerSec)
    writeTimeout := o.writeTimeoutSecs.map (· * msPerSec)
    idleTimeout := o.idleTimeoutSecs.map (· * msPerSec) }

/-- The settings of its WebSockets. -/
def Options.socketConfig (o : Options) : WebSocketConfig :=
  { enableCompression := o.websocketCompression }

/-- Why a server cannot start. -/
inductive StartError where
  | invalidAddress
  | tls (e : TlsError)
  deriving DecidableEq, Repr

/-- What the error says. -/
def StartError.message : StartError → String
  | .invalidAddress => "invalid socket address syntax"
  | .tls e => (Error.tls e).message

/-- How files are read: their content, or the reason why they cannot be. -/
abbrev FileReader := String → Except String String

/-- What a server shows its peers, if it is to speak TLS. -/
def Options.identity (o : Options) (read : FileReader) : Except StartError (Option Identity) :=
  match o.tlsCert, o.tlsKey with
  | some certPath, some keyPath =>
    match read certPath with
    | .error reason => .error (.tls (.certificatesUnreadable certPath reason))
    | .ok certPem =>
      match certificatesOf certPem with
      | .error e => .error (.tls e)
      | .ok _ =>
        match read keyPath with
        | .error reason => .error (.tls (.keyUnreadable keyPath reason))
        | .ok keyPem =>
          match Identity.ofPem certPem keyPem with
          | .error e => .error (.tls e)
          | .ok identity => .ok (some identity)
  | _, _ => .ok none

/-- Check everything that a server needs before it listens. -/
def Options.check (o : Options) (read : FileReader) : Except StartError (Option Identity) :=
  if Address.isHost o.host then o.identity read else .error .invalidAddress

/-- What the shell is told. -/
inductive ExitCode where
  | success
  | failure
  | misuse
  deriving DecidableEq, Repr

/-- The number of an exit code. -/
def ExitCode.number : ExitCode → Nat
  | .success => 0
  | .failure => 1
  | .misuse => 2

/-- The exit code of a command line if it ends before the server listens. -/
def earlyExit (read : FileReader) (words : List String) : Option ExitCode :=
  match parse words with
  | .error .help => some .success
  | .error (.misuse _) => some .misuse
  | .ok o =>
    match o.check read with
    | .error _ => some .failure
    | .ok _ => none

end HttpServer.CommandLine
