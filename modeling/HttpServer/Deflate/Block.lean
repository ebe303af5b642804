import HttpServer.Deflate.Code

/-!
# Blocks of a compressed message

A block is stored as it is, or coded with the fixed codes, or with codes of its own whose lengths stand in
front of it and are coded themselves.  A coded block is a sequence of literals and of copies of what came
before, up to the symbol that ends it.
-/

namespace HttpServer.Deflate

/-- What decoding is in the middle of.  The flag tells the last block. -/
inductive Phase where
  | blockHead
  | stored (remaining : Nat) (last : Bool)
  | coded (literals distances : CodeTree) (last : Bool)
  /-- The last block is over. -/
  | over
  deriving DecidableEq, Repr

/-- One symbol of a coded block. -/
inductive Symbol where
  | literal (b : UInt8)
  | endOfBlock
  | copy (length distance : Nat)
  deriving DecidableEq, Repr

/-- Where the lengths of a copy begin, symbol by symbol, and how many further bits they have. -/
def lengthRanges : List (Nat × Nat) :=
  [(3, 0), (4, 0), (5, 0), (6, 0), (7, 0), (8, 0), (9, 0), (10, 0), (11, 1), (13, 1), (15, 1), (17, 1),
    (19, 2), (23, 2), (27, 2), (31, 2), (35, 3), (43, 3), (51, 3), (59, 3), (67, 4), (83, 4), (99, 4),
    (115, 4), (131, 5), (163, 5), (195, 5), (227, 5), (258, 0)]

/-- The same for distances. -/
def distanceRanges : List (Nat × Nat) :=
  [(1, 0), (2, 0), (3, 0), (4, 0), (5, 1), (7, 1), (9, 2), (13, 2), (17, 3), (25, 3), (33, 4), (49, 4),
    (65, 5), (97, 5), (129, 6), (193, 6), (257, 7), (385, 7), (513, 8), (769, 8), (1025, 9), (1537, 9),
    (2049, 10), (3073, 10), (4097, 11), (6145, 11), (8193, 12), (12289, 12), (16385, 13), (24577, 13)]

/-- A number that a symbol gives up to some further bits. -/
def BitSource.inRange (ranges : List (Nat × Nat)) (symbol : Nat) (s : BitSource) :
    Except Stop (Nat × BitSource) :=
  match ranges[symbol]? with
  | none => .error .corrupt
  | some (first, width) => do
    let (more, s) ← s.number width
    return (first + more, s)

/-- Read one symbol of a coded block. -/
def BitSource.symbol (literals distances : CodeTree) (s : BitSource) :
    Except Stop (Symbol × BitSource) := do
  let (n, s) ← literals.decode s
  if n < 256 then return (.literal (UInt8.ofNat n), s)
  else if n = 256 then return (.endOfBlock, s)
  else
    let (length, s) ← s.inRange lengthRanges (n - 257)
    let (d, s) ← distances.decode s
    let (distance, s) ← s.inRange distanceRanges d
    return (.copy length distance, s)

/-- The codes of a block that brings none of its own. -/
def fixedCodes : Except Stop (CodeTree × CodeTree) := do
  let literals ← CodeTree.ofLengths false (List.replicate 144 8 ++ List.replicate 112 9 ++
    List.replicate 24 7 ++ List.replicate 8 8)
  let distances ← CodeTree.ofLengths false (List.replicate 32 5)
  return (literals, distances)

/-- The order in which the lengths of the code for code lengths are written. -/
def lengthOrder : List Nat :=
  [16, 17, 18, 0, 8, 7, 9, 6, 10, 5, 11, 4, 12, 3, 13, 2, 14, 1, 15]

/-- Read `n` numbers of three bits. -/
def BitSource.shortNumbers : Nat → BitSource → Except Stop (List Nat × BitSource)
  | 0, s => .ok ([], s)
  | n + 1, s => do
    let (k, s) ← s.number 3
    let (ks, s) ← s.shortNumbers n
    return (k :: ks, s)

/-- Read one entry of the table of code lengths: a length, or a repetition of the last one or of zero.  The
entry has at least one length. -/
def BitSource.lengthRun (code : CodeTree) (last? : Option Nat) (s : BitSource) :
    Except Stop ((Nat × Nat) × BitSource) := do
  let (symbol, s) ← code.decode s
  match symbol, last? with
  | 16, none => .error .corrupt
  | 16, some last =>
    let (more, s) ← s.number 2
    return ((last, 2 + more), s)
  | 17, _ =>
    let (more, s) ← s.number 3
    return ((0, 2 + more), s)
  | 18, _ =>
    let (more, s) ← s.number 7
    return ((0, 10 + more), s)
  | length, _ => return ((length, 0), s)

/-- Read code lengths until there are `total` of them; an entry must not reach beyond. -/
def BitSource.codeLengths (code : CodeTree) (total : Nat) (lengths : Array Nat) (s : BitSource) :
    Except Stop (List Nat × BitSource) :=
  if lengths.size < total then
    match s.lengthRun code lengths.back? with
    | .error stop => .error stop
    | .ok ((length, more), s) => s.codeLengths code total (lengths ++ Array.replicate (more + 1) length)
  else if lengths.size = total then .ok (lengths.toList, s)
  else .error .corrupt
termination_by total - lengths.size
decreasing_by
  simp only [Array.size_append, Array.size_replicate]
  omega

/-- The codes that a block brings with it. -/
def BitSource.ownCodes (s : BitSource) : Except Stop ((CodeTree × CodeTree) × BitSource) := do
  let (literalCount, s) ← s.number 5
  let (distanceCount, s) ← s.number 5
  let (lengthCount, s) ← s.number 4
  if 286 < literalCount + 257 ∨ 30 < distanceCount + 1 then .error .corrupt
  else
    let (ks, s) ← s.shortNumbers (lengthCount + 4)
    let written := lengthOrder.zip ks
    let code ← CodeTree.ofLengths true ((List.range 19).map fun i => (written.lookup i).getD 0)
    let (lengths, s) ← s.codeLengths code (literalCount + 257 + (distanceCount + 1)) #[]
    let literals ← CodeTree.ofLengths false (lengths.take (literalCount + 257))
    let distances ← CodeTree.ofLengths false (lengths.drop (literalCount + 257))
    return ((literals, distances), s)

/-- The length of a stored block, which is written twice, the second time with all bits turned over. -/
def BitSource.storedLength (s : BitSource) : Except Stop (Nat × BitSource) :=
  match s.align.bytes with
  | a :: b :: c :: d :: bytes =>
    if a ^^^ c = 0xFF ∧ b ^^^ d = 0xFF then .ok (a.toNat + 256 * b.toNat, { bytes })
    else .error .corrupt
  | _ => .error .exhausted

/-- Read the head of a block. -/
def BitSource.blockHead (s : BitSource) : Except Stop (Phase × BitSource) := do
  let (last, s) ← s.next
  let (kind, s) ← s.number 2
  match kind with
  | 0 =>
    let (length, s) ← s.storedLength
    return (.stored length last, s)
  | 1 =>
    let (literals, distances) ← fixedCodes
    return (.coded literals distances last, s)
  | 2 =>
    let ((literals, distances), s) ← s.ownCodes
    return (.coded literals distances last, s)
  | _ => .error .corrupt

end HttpServer.Deflate
