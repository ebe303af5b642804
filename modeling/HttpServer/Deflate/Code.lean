import HttpServer.Deflate.BitSource

/-!
# Canonical prefix codes

A code is given by the lengths of its codewords.  Among codewords of one length the symbols are in order, and
shorter codewords come first, so the lengths fix the whole code.  It is kept as a tree that is walked bit by
bit; a place where no codeword passes is vacant.

A code has to use up all bit strings.  Only a code of at most one symbol may leave some unused, and the code
for code lengths not even then.
-/

namespace HttpServer.Deflate

/-- A prefix code: zero goes to the first branch, one to the second. -/
inductive CodeTree where
  | vacant
  | leaf (symbol : Nat)
  | node (zero one : CodeTree)
  deriving DecidableEq, Repr

namespace CodeTree

/-- Add a codeword. -/
def insert (symbol : Nat) : List Bool → CodeTree → CodeTree
  | [], _ => .leaf symbol
  | false :: bits, .node zero one => .node (zero.insert symbol bits) one
  | true :: bits, .node zero one => .node zero (one.insert symbol bits)
  | false :: bits, _ => .node (insert symbol bits .vacant) .vacant
  | true :: bits, _ => .node .vacant (insert symbol bits .vacant)

/-- Read one codeword. -/
def decode : CodeTree → BitSource → Except Stop (Nat × BitSource)
  | .vacant, _ => .error .corrupt
  | .leaf symbol, s => .ok (symbol, s)
  | .node zero one, s =>
    match s.next with
    | .error stop => .error stop
    | .ok (false, s) => zero.decode s
    | .ok (true, s) => one.decode s

end CodeTree

/-- The longest codeword. -/
def maxCodeLength : Nat := 15

/-- The `width` low bits of `n`, the most significant one first. -/
def codeword (width n : Nat) : List Bool :=
  (List.range width).map fun i => n.testBit (width - 1 - i)

/-- A code that is being built, and the next codeword as a number. -/
structure CodeBuilder where
  next : Nat := 0
  tree : CodeTree := .node .vacant .vacant

/-- Give all symbols whose codewords have `length` bits the next ones. -/
def CodeBuilder.assign (lengths : List Nat) (b : CodeBuilder) (length : Nat) : CodeBuilder :=
  lengths.zipIdx.foldl (fun b (l, symbol) =>
    if l = length then
      { next := b.next + 1, tree := b.tree.insert symbol (codeword length b.next) }
    else b) { b with next := 2 * b.next }

/-- How many bit strings of the greatest length begin with a codeword. -/
def covered (lengths : List Nat) : Nat :=
  lengths.foldl (fun n l => n + 1 <<< (maxCodeLength - l)) 0

/-- The code of the lengths, in which zero says that a symbol has no codeword. -/
def CodeTree.ofLengths (mustBeFull : Bool) (lengths : List Nat) : Except Stop CodeTree :=
  let used := lengths.filter (0 < ·)
  if covered used ≠ 1 <<< maxCodeLength ∧ (mustBeFull ∨ 1 < used.length) then .error .corrupt
  else .ok ((List.range' 1 maxCodeLength).foldl (CodeBuilder.assign lengths) {}).tree

end HttpServer.Deflate
