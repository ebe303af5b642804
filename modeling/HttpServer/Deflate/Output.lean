import HttpServer.Deflate.Codec

/-!
# Output that grows

The bytes that a coder gives are collected in memory that is made larger when it is full.  A coder never writes beyond the
capacity; before each call there is room for at least `minRoom` bytes.
-/

namespace HttpServer.Deflate

/-- The room that there is at least when a coder is called. -/
def minRoom : Nat := 64

/-- The bytes so far, and how many there can be before the memory has to grow. -/
structure Output where
  bytes : Bytes := []
  capacity : Nat
  spacious : bytes.length + minRoom ≤ capacity := by simp [minRoom]
  deriving DecidableEq, Repr

/-- The capacity of memory that holds `length` bytes and has to take `additional` ones: it stays as it is if it is large
enough, and doubles at least if it is not. -/
def reserved (length capacity additional : Nat) : Nat :=
  if additional ≤ capacity - length then capacity
  else max (2 * capacity) (length + additional)

namespace Output

variable (o : Output)

/-- How many bytes can be written. -/
def room : Nat :=
  o.capacity - o.bytes.length

theorem minRoom_le_room : minRoom ≤ o.room := by
  have := o.spacious
  unfold room
  omega

/-- Write what there is room for, and make as much room again as there was in all. -/
def extend (given : Bytes) (h : given.length ≤ o.room) : Output where
  bytes := o.bytes ++ given
  capacity := reserved (o.bytes ++ given).length o.capacity o.capacity
  spacious := by
    have hCapacity := o.spacious
    have hGiven : o.bytes.length + given.length ≤ o.capacity := by
      unfold room at h
      omega
    simp only [reserved, List.length_append, minRoom] at hCapacity ⊢
    split <;> omega

@[simp] theorem bytes_extend (given : Bytes) (h : given.length ≤ o.room) :
    (o.extend given h).bytes = o.bytes ++ given := rfl

end Output
end HttpServer.Deflate
