import Switchboard.Proofs.Segment.Window
set_option autoImplicit false

/-! # The latest bytes

However a window is used, it is a queue of the bytes pushed since it was last cleared that keeps
only the latest ones, as many as it has cells (`HoldsLatest`). What its cells hold besides does not
matter, and no cell is reached for that does not exist: the operations agree with those that have no
result in that case. -/

namespace Switchboard

/-- What is done with a window. -/
inductive WindowUse where
  | push (byte : UInt8)
  | clear
  deriving Repr, DecidableEq

/-- What was pushed since the last clearing, after one more use. -/
def pushedAfter (bytes : Bytes) : WindowUse → Bytes
  | .push byte => bytes ++ [byte]
  | .clear => []

/-- The bytes pushed since the window was last cleared. -/
def pushedSince (uses : List WindowUse) : Bytes := uses.foldl pushedAfter []

namespace Window

/-- Uses a window once. -/
def use (w : Window) : WindowUse → Window
  | .push byte => (w.push byte).1
  | .clear => w.clear

/-- Uses a window again and again. -/
def useAll (w : Window) (uses : List WindowUse) : Window := uses.foldl use w

/-! ## Reaching for cells

The operations of a window, where reaching for a cell that does not exist gives no result. -/

/-- Reads the byte with an age rank. -/
def tryByteAt (w : Window) (rank : Nat) : Option UInt8 := w.cells[w.cellOf rank]?

/-- Writes a byte into a cell. -/
def tryWrite (w : Window) (cell : Nat) (byte : UInt8) : Option (Array UInt8) :=
  if h : cell < w.cells.size then some (w.cells.set cell byte h) else none

/-- Reads the bytes held, oldest first. -/
def tryToList (w : Window) : Option Bytes := (List.range w.size).mapM w.tryByteAt

/-- Takes a byte in. -/
def tryPush (w : Window) (byte : UInt8) : Option (Window × Option UInt8) :=
  if w.size = w.capacity then do
    let oldest ← w.cells[w.start]?
    let cells ← w.tryWrite w.start byte
    return (⟨cells, (w.start + 1) % w.capacity, w.size⟩, some oldest)
  else do
    let cells ← w.tryWrite (w.cellOf w.size) byte
    return (⟨cells, w.start, w.size + 1⟩, none)

/-- Compares the bytes from an age rank on with those of a pattern, up to the first difference. -/
def tryMatchesFrom (w : Window) : Nat → Bytes → Option Bool
  | _, [] => some true
  | rank, byte :: rest => do
    let held ← w.tryByteAt rank
    if held == byte then w.tryMatchesFrom (rank + 1) rest else return false

/-- Compares a full window with a pattern. -/
def tryMatches (w : Window) (pattern : Bytes) : Option Bool :=
  if w.size == w.capacity && pattern.length == w.capacity then w.tryMatchesFrom 0 pattern
  else some false

section

variable {n : Nat} {w : Window} (h : w.WellFormed n)

include h

theorem tryByteAt_eq (rank : Nat) : w.tryByteAt rank = some (w.byteAt rank) := by
  have hlt := cellOf_lt h rank
  simp [tryByteAt, byteAt, Array.getD, hlt]

omit h in
theorem tryWrite_eq {cell : Nat} (hlt : cell < w.cells.size) (byte : UInt8) :
    w.tryWrite cell byte = some (w.cells.setIfInBounds cell byte) := by
  simp [tryWrite, Array.setIfInBounds, hlt]

theorem tryToList_eq : w.tryToList = some w.toList := by
  have hread : w.tryByteAt = fun rank => some (w.byteAt rank) := funext (tryByteAt_eq h)
  rw [tryToList, hread, toList]
  exact List.mapM_pure

theorem tryPush_eq (byte : UInt8) : w.tryPush byte = some (w.push byte) := by
  have hstart : w.start < w.cells.size := by
    have hcapacity : w.cells.size = n := h.capacity_eq
    rw [hcapacity]
    exact h.start_lt
  rw [tryPush, push]
  split
  · simp [tryWrite_eq hstart, hstart]
  · simp [tryWrite_eq (cellOf_lt h w.size)]

theorem tryMatchesFrom_eq (rank : Nat) (pattern : Bytes) :
    w.tryMatchesFrom rank pattern = some (w.matchesFrom rank pattern) := by
  induction pattern generalizing rank with
  | nil => rfl
  | cons byte rest ih =>
    rw [tryMatchesFrom, matchesFrom, tryByteAt_eq h, Option.bind_eq_bind, Option.bind_some, ih]
    cases w.byteAt rank == byte <;> rfl

theorem tryMatches_eq (pattern : Bytes) :
    w.tryMatches pattern = some (w.matches? pattern) := by
  rw [tryMatches, tryMatchesFrom_eq h, matches?]
  cases w.size == w.capacity && pattern.length == w.capacity <;> rfl

end

/-! ## The bounded queue -/

/-- **A window is a bounded queue** with room for `capacity` bytes, into which `bytes` have come: it
holds the latest of them, gives up the oldest one that it holds when it is full, and matches exactly
what it holds when it is full. All of that reaches only for cells that exist. -/
structure HoldsLatest (capacity : Nat) (bytes : Bytes) (w : Window) : Prop where
  toList_suffix : w.toList <:+ bytes
  length_toList_eq : w.toList.length = min capacity bytes.length
  displaced_iff : ∀ byte oldest, (w.push byte).2 = some oldest ↔
    w.toList.length = capacity ∧ w.toList.head? = some oldest
  matches_iff : ∀ pattern, w.matches? pattern = true ↔
    w.toList.length = capacity ∧ w.toList = pattern
  tryToList_eq : w.tryToList = some w.toList
  tryPush_eq : ∀ byte, w.tryPush byte = some (w.push byte)
  tryMatches_eq : ∀ pattern, w.tryMatches pattern = some (w.matches? pattern)

/-- A full window gives up the first of the bytes that it holds. -/
theorem push_displaces_iff {n : Nat} {w : Window} (h : w.WellFormed n) (byte oldest : UInt8) :
    (w.push byte).2 = some oldest ↔ w.toList.length = n ∧ w.toList.head? = some oldest := by
  rw [length_toList]
  rcases Nat.lt_or_eq_of_le h.size_le with hlt | heq
  · rw [push_keeps h hlt]
    constructor
    · intro hnone
      cases hnone
    · rintro ⟨hfull, -⟩
      omega
  · obtain ⟨first, hfirst, hcons⟩ := push_displaces h heq byte
    rw [hfirst, hcons]
    simp [heq]

theorem holdsLatest_of_wellFormed {n : Nat} {w : Window} {bytes : Bytes} (h : w.WellFormed n)
    (hlatest : w.toList = bytes.drop (bytes.length - n)) : HoldsLatest n bytes w where
  toList_suffix := by
    rw [hlatest]
    exact List.drop_suffix _ _
  length_toList_eq := by
    rw [hlatest, List.length_drop]
    omega
  displaced_iff := push_displaces_iff h
  matches_iff := by
    intro pattern
    rw [matches?_iff h, length_toList]
  tryToList_eq := tryToList_eq h
  tryPush_eq := tryPush_eq h
  tryMatches_eq := tryMatches_eq h

/-- **Using a window.** The latest bytes stay the latest bytes. -/
theorem WellFormed.useAll {n : Nat} {w : Window} (h : w.WellFormed n) {bytes : Bytes}
    (hlatest : w.toList = bytes.drop (bytes.length - n)) (uses : List WindowUse) :
    HoldsLatest n (uses.foldl pushedAfter bytes) (w.useAll uses) := by
  induction uses generalizing w bytes with
  | nil => exact holdsLatest_of_wellFormed h hlatest
  | cons use uses ih =>
    cases use with
    | push byte => exact ih (h.push byte) (h.toList_push hlatest byte)
    | clear => exact ih h.clear (by simp [toList_clear, pushedAfter])

/-- **A window holds the latest bytes**, whatever it is used for and whatever its cells contain in
the beginning. -/
theorem useAll_holdsLatest {capacity : Nat} (hpos : 0 < capacity) (uses : List WindowUse) :
    HoldsLatest capacity (pushedSince uses) ((ofCapacity capacity).useAll uses) ∧
      ∀ cells : Array UInt8, cells.size = capacity →
        HoldsLatest capacity (pushedSince uses) (useAll ⟨cells, 0, 0⟩ uses) := by
  have hcells : ∀ cells : Array UInt8, cells.size = capacity →
      HoldsLatest capacity (pushedSince uses) (useAll ⟨cells, 0, 0⟩ uses) := by
    intro cells hsize
    have hempty : WellFormed capacity ⟨cells, 0, 0⟩ := ⟨hsize, hpos, Nat.zero_le _⟩
    exact hempty.useAll (by simp [toList]) uses
  exact ⟨hcells _ Array.size_replicate, hcells⟩

/-- The ring has gone round and was cleared: a byte from before is left in the cell after the new
one, and the window neither holds it nor matches with it. -/
theorem useAll_holdsLatest_stale :
    0 < 2 ∧
      HoldsLatest 2 [4] ((ofCapacity 2).useAll [.push 1, .push 2, .push 3, .clear, .push 4]) ∧
      ((ofCapacity 2).useAll [.push 1, .push 2, .push 3, .clear, .push 4]).cells = #[4, 2] ∧
      ((ofCapacity 2).useAll [.push 1, .push 2, .push 3, .clear, .push 4]).matches? [4, 2] =
        false := by
  refine ⟨by decide, ?_, by decide, by decide⟩
  exact (useAll_holdsLatest (show 0 < 2 by decide)
    [.push 1, .push 2, .push 3, .clear, .push 4]).1

end Window

end Switchboard
