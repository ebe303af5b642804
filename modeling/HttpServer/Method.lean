import HttpServer.Text.Utf8

/-!
# Request methods and protocol versions
-/

namespace HttpServer

/-- The methods that a request may have.  `pri` is the word with which an HTTP/2 client opens a connection;
it is recognised so that such a client can be turned away. -/
inductive Method where
  | get
  | post
  | put
  | delete
  | patch
  | head
  | options
  | connect
  | trace
  | pri
  deriving DecidableEq, Repr

namespace Method

/-- All methods, in the order of their numbers. -/
def all : List Method :=
  [.get, .post, .put, .delete, .patch, .head, .options, .connect, .trace, .pri]

/-- The method as it is written in a request line. -/
def name : Method → String
  | .get => "GET"
  | .post => "POST"
  | .put => "PUT"
  | .delete => "DELETE"
  | .patch => "PATCH"
  | .head => "HEAD"
  | .options => "OPTIONS"
  | .connect => "CONNECT"
  | .trace => "TRACE"
  | .pri => "PRI"

/-- The number of the method. -/
def index (m : Method) : Nat :=
  m.ctorIdx

/-- The method whose name the bytes are; letter case counts. -/
def parse? (bs : Bytes) : Option Method :=
  all.find? fun m => Utf8.ofText m.name == bs

/-- Whether a body is read for a request with this method. -/
def mayHaveBody : Method → Bool
  | .post | .put | .patch | .delete => true
  | _ => false

/-- Whether a body is written in answer to this method. -/
def canHaveResponseBody (m : Method) : Bool :=
  m != .head

end Method

/-- A protocol version. -/
structure Version where
  major : Nat
  minor : Nat
  deriving DecidableEq, Repr

namespace Version

/-- HTTP/1.0. -/
def http10 : Version := ⟨1, 0⟩

/-- HTTP/1.1. -/
def http11 : Version := ⟨1, 1⟩

/-- HTTP/2.0. -/
def http20 : Version := ⟨2, 0⟩

/-- Versions are ordered by the major number first. -/
def atLeast (v w : Version) : Bool :=
  w.major < v.major || (v.major == w.major && w.minor ≤ v.minor)

/-- The same order read from the other side. -/
def noHigherThan (v w : Version) : Bool :=
  w.atLeast v

end Version
end HttpServer
