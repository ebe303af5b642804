/-!
# Pools of read buffers

Buffers are handed out last in, first out, and they come back empty.  A buffer that grew too large is not
kept, nor is one for which there is no place.  What a buffer holds is of no interest here, only its capacity.
-/

namespace HttpServer

/-- Buffers that wait to be used, the next one first. -/
structure BufferPool where
  bufferSize : Nat := 4096
  maxPooled : Nat := 1024
  /-- The capacities of the waiting buffers. -/
  waiting : List Nat := []
  deriving DecidableEq, Repr

namespace BufferPool

/-- How many times its first size a buffer may have grown. -/
def maxGrowth : Nat := 16

/-- Take a buffer, a new one if none is waiting; the answer is its capacity. -/
def get (p : BufferPool) : Nat × BufferPool :=
  match p.waiting with
  | [] => (p.bufferSize, p)
  | capacity :: waiting => (capacity, { p with waiting })

/-- Give a buffer back. -/
def put (capacity : Nat) (p : BufferPool) : BufferPool :=
  if p.bufferSize * maxGrowth < capacity ∨ p.maxPooled ≤ p.waiting.length then p
  else { p with waiting := capacity :: p.waiting }

/-- A pool never holds more than it may. -/
theorem length_put_le {capacity : Nat} {p : BufferPool} (h : p.waiting.length ≤ p.maxPooled) :
    (p.put capacity).waiting.length ≤ (p.put capacity).maxPooled := by
  unfold put
  split
  · exact h
  · simp only [List.length_cons]
    omega

end BufferPool
end HttpServer
