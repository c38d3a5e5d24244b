import Switchboard.Bytes
set_option autoImplicit false

/-! # The sliding window

A window holds the latest bytes, as many as it has cells. The cells are used in a ring: `start` is
the cell of the oldest byte and `size` the number of bytes held. Clearing a window leaves its cells
as they are, so a cell that is not in use may hold an old byte; `Window.toList` is the view that
does not see those.

A window is a `RingWindow`. -/

namespace Switchboard

/-- The latest bytes of a sequence. -/
structure Window where
  cells : Array UInt8
  start : Nat
  size : Nat
  deriving Repr, DecidableEq

namespace Window

/-- A window for so many bytes, holding none. -/
def ofCapacity (capacity : Nat) : Window := ⟨Array.replicate capacity 0, 0, 0⟩

/-- How many bytes a window can hold. -/
def capacity (w : Window) : Nat := w.cells.size

/-- The cell of the byte with this age rank, the oldest having rank 0. -/
def cellOf (w : Window) (rank : Nat) : Nat := (w.start + rank) % w.capacity

/-- The byte with this age rank. -/
def byteAt (w : Window) (rank : Nat) : UInt8 := w.cells.getD (w.cellOf rank) 0

/-- The bytes held, oldest first. -/
def toList (w : Window) : Bytes := (List.range w.size).map w.byteAt

/-- Takes a byte in. A full window gives its oldest byte up for it. -/
def push (w : Window) (byte : UInt8) : Window × Option UInt8 :=
  if w.size = w.capacity then
    (⟨w.cells.setIfInBounds w.start byte, (w.start + 1) % w.capacity, w.size⟩,
      some (w.cells.getD w.start 0))
  else
    (⟨w.cells.setIfInBounds (w.cellOf w.size) byte, w.start, w.size + 1⟩, none)

/-- Whether the bytes from this age rank on are those of a pattern. -/
def matchesFrom (w : Window) : Nat → Bytes → Bool
  | _, [] => true
  | rank, byte :: rest => w.byteAt rank == byte && w.matchesFrom (rank + 1) rest

/-- Whether the window is full and holds exactly a pattern. -/
def matches? (w : Window) (pattern : Bytes) : Bool :=
  w.size == w.capacity && pattern.length == w.capacity && w.matchesFrom 0 pattern

/-- Forgets the bytes held. -/
def clear (w : Window) : Window := ⟨w.cells, 0, 0⟩

end Window

end Switchboard
